import TypeLoom.Proofs.Moves

/-! Computations that make moves, whatever the facts are and also if they fail. They fail only for a
type declaration without a name. Here are the rules for such computations, and those that change the
graph in one step: by registering nodes, and by looking up primitive types and enums. -/
namespace TypeLoom

namespace Ingest
open TypeLoom.Graph TypeLoom.Fact Relation

/-! ### Computations that make moves -/

/-- Moves lead from a state to another with the same records under construction, and the
declarations at the places in `pending` are not built by them. -/
structure Reaches (c : Context) (frames : List Frame) (pending : List Nat) (s s' : State) :
    Prop where
  moves : Moves c ⟨frames, s⟩ ⟨frames, s'⟩
  pending : ∀ place ∈ pending, s'.built.get? place = s.built.get? place

/-- The computation makes moves from this state. A result is as described; if there is none, some
declaration has no name. -/
def Calm {α : Type} (c : Context) (frames : List Frame) (pending : List Nat) (m : Ingest α)
    (s : State) (post : α → State → Prop) : Prop :=
  Reaches c frames pending s (m.run.run s).2 ∧
    (∀ result, (m.run.run s).1 = .ok result → post result (m.run.run s).2) ∧
    ∀ e, (m.run.run s).1 = .error e → ¬ c.Named

namespace Reaches
variable {c : Context} {frames : List Frame} {pending : List Nat} {s s' s'' : State}

theorem refl : Reaches c frames pending s s := ⟨.refl, fun _ _ => rfl⟩

theorem trans (first : Reaches c frames pending s s') (second : Reaches c frames pending s' s'') :
    Reaches c frames pending s s'' where
  moves := ReflTransGen.trans first.moves second.moves
  pending place member := (second.pending place member).trans (first.pending place member)

theorem later (reaches : Reaches c frames pending s s') (valid : Valid c s) : Later c s s' :=
  reaches.moves.later valid

theorem valid (reaches : Reaches c frames pending s s') (valid : Valid c s) : Valid c s' :=
  reaches.moves.valid valid

theorem of_graph {g : Graph} (moves : Moves c ⟨frames, s⟩ ⟨frames, { s with graph := g }⟩) :
    Reaches c frames pending s { s with graph := g } := ⟨moves, fun _ _ => rfl⟩

end Reaches

namespace Calm
variable {α β : Type} {c : Context} {frames : List Frame} {pending : List Nat} {s : State}

theorem pure {post : α → State → Prop} {result : α} (holds : post result s) :
    Calm c frames pending (pure result) s post := by
  refine ⟨.refl, fun other same => ?_, fun e same => by cases same⟩
  cases same
  exact holds

theorem mono {m : Ingest α} {post post' : α → State → Prop} (calm : Calm c frames pending m s post)
    (weaker : ∀ result s', Reaches c frames pending s s' → post result s' → post' result s') :
    Calm c frames pending m s post' :=
  ⟨calm.1, fun result same => weaker result _ calm.1 (calm.2.1 result same), calm.2.2⟩

theorem bind {m : Ingest α} {f : α → Ingest β} {mid : α → State → Prop} {post : β → State → Prop}
    (valid : Valid c s) (first : Calm c frames pending m s mid)
    (next : ∀ result s', Reaches c frames pending s s' → Valid c s' → mid result s' →
      Calm c frames pending (f result) s' post) : Calm c frames pending (m >>= f) s post := by
  obtain ⟨reaches, holds, fails⟩ := first
  unfold Calm
  rw [ExceptT.run_bind, StateT.run_bind]
  generalize m.run.run s = outcome at reaches holds fails ⊢
  obtain ⟨result, s₁⟩ := outcome
  cases result with
  | error e =>
    refine ⟨reaches, fun _ same => ?_, fun _ _ => fails e rfl⟩
    cases same
  | ok a =>
    obtain ⟨reaches', outcome⟩ := next a s₁ reaches (reaches.valid valid) (holds a rfl)
    exact ⟨reaches.trans reaches', outcome⟩

theorem weaken (place : Nat) {m : Ingest α} {post : α → State → Prop}
    (calm : Calm c frames (place :: pending) m s post) : Calm c frames pending m s fun result s' =>
      post result s' ∧ s'.built.get? place = s.built.get? place :=
  ⟨⟨calm.1.moves, fun other member => calm.1.pending other (List.mem_cons_of_mem place member)⟩,
    fun result same => ⟨calm.2.1 result same, calm.1.pending place List.mem_cons_self⟩, calm.2.2⟩

theorem map {m : Ingest α} {f : α → β} {post : β → State → Prop} (valid : Valid c s)
    (calm : Calm c frames pending m s fun result s' => post (f result) s') :
    Calm c frames pending (f <$> m) s post := by
  rw [map_eq_pure_bind]
  exact calm.bind valid fun _ _ _ _ holds => .pure holds

theorem discard {m : Ingest α} {mid : α → State → Prop} (valid : Valid c s)
    (calm : Calm c frames pending m s mid) :
    Calm c frames pending (Functor.discard m) s fun _ _ => True :=
  .map valid (calm.mono fun _ _ _ _ => trivial)

theorem tryCatch {m : Ingest α} {handler : MissingIdentity → Ingest α} {post : α → State → Prop}
    (valid : Valid c s) (calm : Calm c frames pending m s post)
    (caught : ∀ e s', Reaches c frames pending s s' → Valid c s' →
      Calm c frames pending (handler e) s' post) :
    Calm c frames pending (tryCatch m handler) s post := by
  obtain ⟨reaches, holds, -⟩ := calm
  unfold Calm
  rw [ExceptT.run_tryCatch, StateT.run_bind]
  generalize m.run.run s = outcome at reaches holds ⊢
  obtain ⟨result, s₁⟩ := outcome
  cases result with
  | ok a =>
    refine ⟨reaches, fun result same => ?_, fun _ same => by cases same⟩
    cases same
    exact holds a rfl
  | error e =>
    obtain ⟨reaches', outcome⟩ := caught e s₁ reaches (reaches.valid valid)
    exact ⟨reaches.trans reaches', outcome⟩

theorem loop {xs : List α} {body : α → PUnit → Ingest (ForInStep PUnit)}
    (known : List α → State → Prop) (valid : Valid c s) (start : known [] s)
    (each : ∀ before x after s', xs = before ++ x :: after → Valid c s' → known before s' →
      Calm c frames pending (body x ⟨⟩) s' fun step s'' =>
        step = .yield ⟨⟩ ∧ known (before ++ [x]) s'') :
    Calm c frames pending (forIn xs PUnit.unit body) s fun _ s' => known xs s' := by
  induction xs generalizing s known with
  | nil => exact .pure start
  | cons x rest ih =>
    rw [List.forIn_cons]
    refine (each [] x rest s rfl valid start).bind valid fun step s₁ _ valid₁ after => ?_
    obtain ⟨rfl, after⟩ := after
    refine ih (fun before => known (x :: before)) valid₁ after
      fun before y later s' split valid' holds => ?_
    exact each (x :: before) y later s' (by rw [split]; rfl) valid' holds

theorem forEach {xs : List α} {body : α → PUnit → Ingest (ForInStep PUnit)} (valid : Valid c s)
    (each : ∀ x s', Valid c s' →
      Calm c frames pending (body x ⟨⟩) s' fun step _ => step = .yield ⟨⟩) :
    Calm c frames pending (forIn xs PUnit.unit body) s fun _ _ => True :=
  .loop (fun _ _ => True) valid trivial fun _ x _ s' _ valid' _ =>
    (each x s' valid').mono fun _ _ _ yields => ⟨yields, trivial⟩

theorem getGraph_bind {f : Graph → Ingest β} {post : β → State → Prop}
    (calm : Calm c frames pending (f s.graph) s post) :
    Calm c frames pending (getGraph >>= f) s post := by
  unfold Calm
  rw [run_getGraph_bind]
  exact calm

theorem modifyGraph {f : Graph → Graph} {post : PUnit → State → Prop}
    (moves : Moves c ⟨frames, s⟩ ⟨frames, { s with graph := f s.graph }⟩)
    (holds : post ⟨⟩ { s with graph := f s.graph }) :
    Calm c frames pending (modifyGraph f) s post :=
  ⟨.of_graph moves, fun _ _ => holds, fun _ same => by cases same⟩

theorem withGraph {f : Graph → α × Graph} {post : α → State → Prop}
    (moves : Moves c ⟨frames, s⟩ ⟨frames, { s with graph := (f s.graph).2 }⟩)
    (holds : post (f s.graph).1 { s with graph := (f s.graph).2 }) :
    Calm c frames pending (withGraph f) s post := by
  refine ⟨.of_graph moves, fun _ same => ?_, fun _ same => by cases same⟩
  cases same
  exact holds

theorem tryGraph {f : Graph → Except MissingIdentity (α × Graph)} {post : α → State → Prop}
    (fine : ∀ result g, f s.graph = .ok (result, g) →
      Moves c ⟨frames, s⟩ ⟨frames, { s with graph := g }⟩ ∧ post result { s with graph := g })
    (fails : ∀ e, f s.graph = .error e → ¬ c.Named) :
    Calm c frames pending (tryGraph f) s post := by
  unfold Calm
  cases done : f s.graph with
  | error e =>
    rw [run_tryGraph_error done]
    refine ⟨.refl, fun _ same => ?_, fun _ _ => fails e done⟩
    cases same
  | ok pair =>
    obtain ⟨result, g⟩ := pair
    rw [run_tryGraph_ok done]
    obtain ⟨moves, holds⟩ := fine result g done
    refine ⟨.of_graph moves, fun _ same => ?_, fun _ same => by cases same⟩
    cases same
    exact holds

end Calm

/-! ### Changes aside -/

section aside
variable {c : Context} {g g' g'' : Graph}

theorem Keyed.of_same (keyed : Keyed c g) (nodes : g'.nodes = g.nodes) (keys : g'.keys = g.keys)
    (primitives : g'.primitives = g.primitives) (issued : g.issued ≤ g'.issued) : Keyed c g' := by
  refine ⟨?_, ?_, fun id node found => ?_, ?_, ?_⟩
  · rw [keys, nodes]
    exact keyed.keys
  · rw [primitives, nodes]
    exact keyed.primitives
  · rw [nodes] at found
    exact (keyed.nodeKeys id node found).imp_left fun spent => spent.mono issued
  · rw [nodes]
    exact keyed.issued
  · rw [nodes]
    exact keyed.arrays

theorem Aside.refl (c : Context) (g : Graph) : Aside c g g where
  steps := .refl
  old _ node found := ⟨node.shape, found, .refl _, fun _ => rfl⟩
  new id node found missing := by
    rw [found] at missing
    cases missing
  findings := List.Subset.refl _
  keyed := id

theorem Aside.trans (first : Aside c g g') (second : Aside c g' g'') : Aside c g g'' where
  steps := first.steps.trans second.steps
  old id node found := by
    obtain ⟨shape, found', grows, same⟩ := first.old id node found
    obtain ⟨shape', found'', grows', same'⟩ := second.old id _ found'
    refine ⟨shape', found'', grows.trans grows', fun ordinary => ?_⟩
    have isShape := same ordinary
    subst isShape
    exact same' ordinary
  new id node found missing := by
    cases known : g'.nodes[id]? with
    | none => exact second.new id node found known
    | some before =>
      obtain ⟨shape, found', grows, -⟩ := second.old id before known
      rw [found, Option.some_inj] at found'
      rw [found']
      exact (Shape.isOrdinary_of_label grows.label).trans (first.new id before known missing)
  findings := List.Subset.trans first.findings second.findings
  keyed := second.keyed ∘ first.keyed

theorem Aside.of_nodes (steps : Steps g g') (nodes : g'.nodes = g.nodes)
    (findings : g.findings ⊆ g'.findings) (keyed : Keyed c g → Keyed c g') : Aside c g g' where
  steps := steps
  old _ node found := ⟨node.shape, by rw [nodes, found], .refl _, fun _ => rfl⟩
  new id node found missing := by
    rw [nodes, missing] at found
    cases found
  findings := findings
  keyed := keyed

theorem Aside.of_push {node : Node} (steps : Steps g g') (nodes : g'.nodes = g.nodes.push node)
    (findings : g'.findings = g.findings) (strange : node.shape.isOrdinary = false)
    (keyed : Keyed c g → Keyed c g') : Aside c g g' where
  steps := steps
  old id other found := by
    refine ⟨other.shape, ?_, .refl _, fun _ => rfl⟩
    rw [nodes, Array.getElem?_push, if_neg (Array.getElem?_eq_some_iff.mp found).1.ne]
    exact found
  new id other found missing := by
    rw [nodes, Array.getElem?_push] at found
    split_ifs at found
    · cases found
      exact strange
    · rw [missing] at found
      cases found
  findings := by
    rw [findings]
    exact List.Subset.refl _
  keyed := keyed

theorem aside_note {issued : Nat} (more : g.issued ≤ issued) (findings : List Finding) :
    Aside c g { g with issued := issued, findings := g.findings ++ findings } :=
  .of_nodes (.single (.note _ _)) rfl (List.subset_append_left _ _)
    fun keyed => keyed.of_same rfl rfl rfl more

theorem spent_of_not_mem {key : String} (plain : '#' ∉ key.toList) : Spent g key := by
  rintro name n - rfl
  exact plain (by simp [issuedKey])

theorem Aside.of_plain (node : Node) (steps : Steps g g') (nodes : g'.nodes = g.nodes.push node)
    (keys : g'.keys = g.keys.insert node.key g.nodes.size) (issued : g'.issued = g.issued)
    (findings : g'.findings = g.findings)
    (primitives : ∀ kind id, g'.primitives.get? kind = some id →
      g.primitives.get? kind = some id ∨ id = g.nodes.size)
    (strange : node.shape.isOrdinary = false) (plain : '#' ∉ node.key.toList)
    (name : node.name ∉ arrayNames) : Aside c g g' :=
  .of_push steps nodes findings strange fun keyed => keyed.of_push nodes keys
    (fun kind id found => (primitives kind id found).imp_right fun last => ⟨last, strange⟩) issued
    (.inl (spent_of_not_mem plain)) (fun _ => .inr plain) fun array => absurd array name

theorem primitive_aside (intact : g.Intact) (kind : Primitive) :
    Aside c g (g.primitive kind).2 := by
  have steps := (primitive_steps intact kind).1
  rw [primitive] at steps ⊢
  split at steps
  · exact .refl c g
  · refine .of_plain (primitiveNode kind) steps rfl rfl rfl rfl (fun other id found => ?_)
      rfl ?_ ?_
    · rcases get?_insert_cases _ found with last | old
      · exact .inr last
      · exact .inl old
    · cases kind <;> decide
    · cases kind <;> decide

theorem addConstant_aside (intact : g.Intact) {constant : Constant}
    (inside : ∀ id ∈ constant.type.nodes, id < g.nodes.size) :
    Aside c g (g.addConstant constant).2 := by
  have steps := (addConstant_steps intact inside).1
  cases known : g.constants with
  | none =>
    rw [addConstant_first known] at steps ⊢
    have plain : '#' ∉ constantsKey.toList := by decide
    have name : constantsKey ∉ arrayNames := by decide
    exact .of_plain (constantsOf constant) steps rfl rfl rfl rfl (fun _ _ => .inl) rfl plain name
  | some id =>
    have here : (g.addConstant constant).2 = g.modifyShape id (Shape.addConstant · constant) := by
      rw [addConstant, constantsNode, known, modifyShape]
    rw [here] at steps ⊢
    refine ⟨steps, fun other node found => ?_, fun other node found missing => ?_,
      List.Subset.refl _,
      fun keyed => keyed.of_reshape id fun shape => (shape.grows_addConstant constant).label⟩
    · rw [modifyShape_getElem?, found]
      split_ifs
      · refine ⟨_, rfl, node.shape.grows_addConstant constant, fun ordinary => ?_⟩
        cases shape : node.shape with
        | constants items =>
          rw [shape] at ordinary
          cases ordinary
        | _ => rfl
      · exact ⟨node.shape, rfl, .refl _, fun _ => rfl⟩
    · rw [modifyShape_getElem?, missing] at found
      split_ifs at found
      cases found

theorem register_error {node : Node} {e : MissingIdentity} (failed : g.register node = .error e) :
    Text.isBlankText node.name.toList = true := by
  have identified : ∃ e, g.identify node = .error e := by
    rw [register] at failed
    cases outcome : g.identify node with
    | error e => exact ⟨e, rfl⟩
    | ok pair =>
      obtain ⟨keyed, g₁⟩ := pair
      rw [outcome] at failed
      simp only [bind, Except.bind] at failed
      split at failed
      · cases failed
      · split_ifs at failed <;> cases failed
  obtain ⟨e, failed⟩ := identified
  rw [identify] at failed
  split at failed
  · cases failed
  · cases failed
  · split_ifs at failed with blank
    · exact blank
    · split at failed <;> cases failed

theorem register_visible {node : Node} (named : node.shape.isNamed = true) {id : NodeId}
    (done : g.register node = .ok (id, g')) : Text.isBlankText node.name.toList = false := by
  obtain ⟨_, identified, -⟩ := ok_of_bind done
  exact (identify_cases named identified).1

theorem renamed_not_mem (node : Node) : renamed node ∉ arrayNames := by
  intro array
  obtain ⟨last, isLast, ending⟩ := renamed_getLast? node
  simp only [arrayNames, List.mem_cons, List.not_mem_nil, or_false] at array
  rcases array with same | same
  · rw [same] at isLast
    cases isLast
    cases ending
  · rw [same] at isLast
    cases isLast
    cases ending

theorem name_of_placement {node placed : Node} (placement : g.Placement node placed) :
    placed.name = node.name ∨ placed.name ∉ arrayNames := by
  rcases placement.cases with same | ⟨-, -, before, name⟩
  · exact .inl (by rw [same])
  · rw [name]
    exact .inr (renamed_not_mem before)

theorem identified_aside {node keyed : Node} (identified : Identified g node keyed g')
    (findings : List Finding) : Aside c g { g' with findings := g'.findings ++ findings } := by
  have more := identified.issued_le
  rw [identified.graph_eq] at more ⊢
  exact aside_note more findings

theorem unionName_not_mem (arity : Nat) : unionName arity ∉ arrayNames := by
  have start : (unionName arity).toList.head? = some 'U' := by
    simp [unionName, unionStem]
  intro array
  simp only [arrayNames, List.mem_cons, List.not_mem_nil, or_false] at array
  rcases array with same | same <;> rw [same] at start <;> cases start

end aside

/-! ### Registration -/

/-- Names that are made up: they are visible, and no builtin array has them. -/
structure MadeUp (name : String) : Prop where
  visible : Text.isBlankText name.toList = false
  other : name ∉ arrayNames

theorem madeUp_append (stem : String) {suffix : String}
    (known : suffix ∈ ["Class", "Enum", "Tuple", "Dictionary", "Union", "Value"]) :
    MadeUp (stem ++ suffix) := by
  simp only [List.mem_cons, List.not_mem_nil, or_false] at known
  refine ⟨?_, fun array => ?_⟩
  · rw [isBlankText_append]
    rcases known with rfl | rfl | rfl | rfl | rfl | rfl <;> exact Bool.and_false _
  · simp only [arrayNames, List.mem_cons, List.not_mem_nil, or_false] at array
    rcases array with same | same <;>
      replace same := congrArg (List.reverse ∘ String.toList) same <;>
      rcases known with rfl | rfl | rfl | rfl | rfl | rfl <;> simp at same

section register
variable {c : Context} {s : State} (valid : Valid c s)
include valid

/-- No key is issued twice, but a declaration may have brought it. -/
theorem clashes_of_issued {name : String} {id : NodeId}
    (found : s.graph.keys.get? (issuedKey name (s.graph.issued + 1)) = some id) : c.Clashes := by
  obtain ⟨node, there, key⟩ := valid.keyed.keys _ _ found
  rcases valid.keyed.nodeKeys id node there with spent | explicit
  · exact absurd key (spent name _ (Nat.lt_succ_self _))
  · exact ⟨name, _, key ▸ explicit⟩

theorem registerAnonymous_cases {name : String} (madeUp : MadeUp name) {shape : Shape}
    (ordinary : shape.isOrdinary = true)
    (inside : ∀ id ∈ shape.outgoing, id < s.graph.nodes.size) (level : Nat) :
    ∃ id g₁ g', (registerAnonymous name shape level).run.run s = (.ok id, { s with graph := g' }) ∧
      Aside c s.graph g₁ ∧ g₁.nodes = s.graph.nodes ∧
      (c.Clashes ∧ g' = g₁ ∧ id < s.graph.nodes.size ∨
        ∃ node, Nameless g₁ node ∧ node.shape = shape ∧ g' = (g₁.push node).2 ∧
          id = s.graph.nodes.size) := by
  let node : Node := {
    name := name, shape := shape, flags := { internal := true, anonymous := true }, level := level }
  cases done : s.graph.register node with
  | error e =>
    have blank := register_error done
    rw [madeUp.visible] at blank
    cases blank
  | ok pair =>
    obtain ⟨id, g'⟩ := pair
    obtain ⟨keyed, g₁, identified, outcome⟩ := register_cases valid.graph
      (Shape.isNamed_of_isOrdinary ordinary) rfl inside
      (fun _ taken _ => Shape.sameUnion_of_isOrdinary ordinary taken.shape) done
    have aside := @identified_aside c _ _ _ _ identified
    cases identified with
    | given own => cases own
    | issued _ =>
      obtain ⟨rfl, hit⟩ | ⟨placed, more, placement, isPlaced, rfl, rfl⟩ := outcome
      · have here := aside []
        rw [List.append_nil] at here
        exact ⟨id, _, _, run_tryGraph_ok done, here, rfl,
          .inl ⟨clashes_of_issued valid hit, rfl, valid.graph.keys _ _ hit⟩⟩
      · refine ⟨_, _, _, run_tryGraph_ok done, aside more, rfl, .inr ⟨placed, ?_, ?_, rfl, rfl⟩⟩
        · have key : placed.key = issuedKey name (s.graph.issued + 1) := by rw [placement.kept]
          refine ⟨isPlaced, ?_, ?_, ⟨name, key⟩, ?_⟩
          · rw [placement.shape, ordinary]
          · rw [placement.kept]
          · rcases name_of_placement placement with same | other
            · rw [same]
              exact madeUp.other
            · exact other
        · rw [placement.shape]

theorem bears_of_key {fact : Fact} (mem : fact ∈ c.facts) (isType : fact.isType = true)
    {key : String} (explicit : fact.key? = some key) {id : NodeId}
    (hit : s.graph.keys.get? key = some id) : c.Clashes ∨ Bears s.graph fact id := by
  by_cases clash : c.Clashes
  · exact .inl clash
  obtain ⟨node, found, rfl⟩ := valid.keyed.keys _ _ hit
  -- Nodes that are not those of declarations have keys of another form.
  have plain : ¬ (node.flags.anonymous = true ∨ node.shape.isOrdinary = false) := by
    intro strange
    rcases valid.keyed.issued id node found strange with ⟨issued, n, same⟩ | without
    · exact clash ⟨issued, n, fact, mem, isType, by rw [explicit, same]⟩
    · obtain ⟨origin, -, same⟩ := Option.map_eq_some_iff.mp explicit
      exact without (by simp [← same])
  rw [not_or, Bool.not_eq_true, Bool.not_eq_false] at plain
  exact .inr ⟨node, found, plain.1, plain.2, .inr explicit⟩

omit valid in
theorem key_of_identified {g g' : Graph} {fact : Fact} {node keyed : Node}
    (identified : Identified g node keyed g') (name : node.name = fact.name)
    (origin : node.origin = fact.origin) :
    fact.key? = some keyed.key ∨
      fact.origin = none ∧ keyed.key = issuedKey fact.name (g.issued + 1) ∧
        g'.issued = g.issued + 1 := by
  cases identified with
  | given own => exact .inl (by rw [Fact.key?, ← origin, own, ← name, Option.map_some])
  | issued without => exact .inr ⟨origin ▸ without, by rw [name], rfl⟩

theorem registerNamed_cases {fact : Fact} (mem : fact ∈ c.facts)
    (registers : (isSolid fact || isAlias fact) = true) {shape : Shape}
    (ordinary : shape.isOrdinary = true)
    (inside : ∀ id ∈ shape.outgoing, id < s.graph.nodes.size) :
    (∃ e, (registerNamed fact shape).run.run s = (.error e, s) ∧ ¬ c.Named) ∨
    ∃ id g₁ g', (registerNamed fact shape).run.run s = (.ok id, { s with graph := g' }) ∧
      Aside c s.graph g₁ ∧ g₁.nodes = s.graph.nodes ∧
      (g' = g₁ ∧ id < s.graph.nodes.size ∧ (c.Clashes ∨ Owns s.graph fact id) ∨
        Text.isBlankText fact.name.toList = false ∧
          ∃ node, Declared g₁ fact node ∧ node.shape = shape ∧ g' = (g₁.push node).2 ∧
            id = s.graph.nodes.size) := by
  let node : Node := {
    name := fact.name, origin := fact.origin, shape := shape, flags := fact.flags
    level := fact.level, comment := fact.comment }
  cases done : s.graph.register node with
  | error e =>
    refine .inl ⟨e, run_tryGraph_error done, fun named => ?_⟩
    have blank : Text.isBlankText fact.name.toList = true := register_error done
    rw [named fact mem registers] at blank
    cases blank
  | ok pair =>
    obtain ⟨id, g'⟩ := pair
    obtain ⟨keyed, g₁, identified, outcome⟩ := register_cases valid.graph
      (Shape.isNamed_of_isOrdinary ordinary) rfl inside
      (fun _ taken _ => Shape.sameUnion_of_isOrdinary ordinary taken.shape) done
    have aside := @identified_aside c _ _ _ _ identified
    have same : g₁.nodes = s.graph.nodes := by rw [identified.graph_eq]
    have key := @key_of_identified _ _ fact _ _ identified rfl rfl
    refine .inr ?_
    obtain ⟨rfl, hit⟩ | ⟨placed, more, placement, isPlaced, rfl, rfl⟩ := outcome
    · have here := aside []
      rw [List.append_nil] at here
      refine ⟨id, _, _, run_tryGraph_ok done, here, same, .inl ⟨rfl, valid.graph.keys _ _ hit, ?_⟩⟩
      rcases key with explicit | ⟨-, issued, -⟩
      · exact (bears_of_key valid mem (isType_of_registers registers) explicit hit).imp_right
          fun bears => ⟨register_visible (Shape.isNamed_of_isOrdinary ordinary) done, bears⟩
      · rw [issued] at hit
        exact .inl (clashes_of_issued valid hit)
    · have isShape : placed.shape = shape := by rw [placement.shape, identified.node_eq]
      have isKey : placed.key = keyed.key := by rw [placement.kept]
      refine ⟨_, _, _, run_tryGraph_ok done, aside more, same,
        .inr ⟨register_visible (Shape.isNamed_of_isOrdinary ordinary) done, placed, ?_, isShape,
          rfl, rfl⟩⟩
      refine ⟨isPlaced, by rw [isShape, ordinary], ⟨?_, ?_⟩, ?_, ?_⟩
      · rw [placement.kept, identified.node_eq]
      · rw [isKey]
        exact key.imp_right fun issued => ⟨issued.1, _, issued.2.1⟩
      · rw [isKey]
        refine key.imp_right fun issued => ?_
        rw [issued.2.1, ← issued.2.2]
        exact spent_issuedKey g₁ fact.name
      · have name : keyed.name = fact.name := by rw [identified.node_eq]
        rw [← name]
        exact name_of_placement placement

theorem unionBase_aside {arity : Nat} {id : NodeId} {g' : Graph}
    (done : s.graph.unionBase arity = .ok (id, g')) : Aside c s.graph g' := by
  have steps := (unionBase_steps valid.graph done).1
  rw [unionBase] at done
  split at done
  · cases done
    exact .refl c _
  · rename_i absent
    obtain ⟨⟨base, g₁⟩, registered, done⟩ := ok_of_bind done
    cases done
    obtain ⟨keyed, g₂, identified, outcome⟩ := register_cases valid.graph (by rfl) rfl
      (fun _ member => by cases member) (valid.graph.sameUnion_of_absent absent) registered
    have aside := @identified_aside c _ _ _ _ identified
    obtain ⟨rfl, hit⟩ | ⟨placed, more, placement, isPlaced, rfl, rfl⟩ := outcome
    · have here := aside []
      rw [List.append_nil] at here
      refine .of_nodes steps ?_ here.findings fun keyed =>
        (here.keyed keyed).of_same rfl rfl rfl le_rfl
      show g₁.nodes = s.graph.nodes
      rw [identified.graph_eq]
    · have shape : placed.shape = .classUnion arity := by rw [placement.shape, identified.node_eq]
      have strange : placed.shape.isOrdinary = false := by rw [shape]; rfl
      cases identified with
      | given own => cases own
      | issued _ =>
        have key : placed.key = issuedKey (unionName arity) (s.graph.issued + 1) := by
          rw [placement.kept]
        refine (aside more).trans
          (.of_push (.single (.base isPlaced shape)) rfl rfl strange fun keyed => ?_)
        refine keyed.of_push rfl rfl (fun _ _ => .inl) rfl (.inl ?_)
          (fun _ => .inl ⟨_, _, key⟩) fun array => ?_
        · rw [key]
          exact spent_issuedKey { s.graph with issued := s.graph.issued + 1 } _
        · rcases name_of_placement placement with same | other
          · rw [same] at array
            exact absurd array (unionName_not_mem arity)
          · exact absurd array other

end register

/-! ### Steps on the graph -/

section functions
variable {c : Context} {frames : List Frame} {pending : List Nat} {s : State}

theorem InScope.node {generics : List String} {id : NodeId} {depth : Nat} {arguments : List TypeUse}
    (inside : id < s.graph.nodes.size)
    (own : ¬ c.Clashes → ¬ Leaks c s → ∀ name, ¬ Occurs s.graph name (.ofNode id))
    (others : ∀ u ∈ arguments, InScope c s generics u) :
    InScope c s generics ⟨.node id, depth, arguments⟩ where
  inside other member := by
    rw [TypeUse.nodes, List.mem_cons, TypeUse.nodesOfAll_eq, List.mem_flatMap] at member
    obtain rfl | ⟨u, listed, member⟩ := member
    · exact inside
    · exact (others u listed).inside other member
  direct name mentions := by
    rw [TypeUse.mentions, anyMentions_iff] at mentions
    obtain ⟨u, listed, mentions⟩ := mentions
    exact (others u listed).direct name mentions
  occurs apart sealed name occurs := by
    rcases occurs.node_cases with here | ⟨u, listed, occurs⟩
    · exact absurd here (own apart sealed name)
    · exact (others u listed).occurs apart sealed name occurs

theorem InScope.ofGeneric {generics : List String} {name : String} (known : name ∈ generics) :
    InScope c s generics (.ofGeneric name) := by
  have only (other : String) (mentions : (TypeUse.ofGeneric name).mentions other = true) :
      other ∈ generics := by
    simp [TypeUse.ofGeneric, TypeUse.mentions, TypeUse.anyMentions] at mentions
    exact mentions ▸ known
  refine ⟨fun id member => ?_, only, fun _ _ other occurs => ?_⟩
  · cases member
  cases occurs with
  | direct mentions => exact only other mentions
  | inside named => cases named

theorem InScope.deepen {generics : List String} {u : TypeUse} (inScope : InScope c s generics u)
    (ranks : Nat) : InScope c s generics (u.deepen ranks) where
  inside id member := inScope.inside id (nodes_deepen u ranks ▸ member)
  direct name mentions := inScope.direct name (mentions_deepen u ranks ▸ mentions)
  occurs apart sealed name occurs := inScope.occurs apart sealed name occurs.of_deepen

/-- A node in which no type parameters occur. -/
def Sealed (c : Context) (s : State) (id : NodeId) : Prop :=
  id < s.graph.nodes.size ∧ (¬ c.Clashes → ∀ name, ¬ Occurs s.graph name (.ofNode id))

theorem Sealed.inScope {id : NodeId} (sealed : Sealed c s id) (generics : List String) :
    InScope c s generics (.ofNode id) :=
  .node sealed.1 (fun apart _ => sealed.2 apart) fun _ member => by cases member

theorem sealed_of_not_inline {id : NodeId} {node : Node} (found : s.graph.nodes[id]? = some node)
    (other : node.isInline = false) : Sealed c s id := by
  refine ⟨(Array.getElem?_eq_some_iff.mp found).1, fun _ name occurs => ?_⟩
  obtain ⟨node', found', inline, -⟩ := occurs.of_node
  rw [found, Option.some_inj] at found'
  rw [← found', other] at inline
  cases inline

theorem not_inline_of_isOrdinary {node : Node} (strange : node.shape.isOrdinary = false) :
    node.isInline = false := by
  revert strange
  rw [Node.isInline]
  cases node.shape <;> simp [Shape.isOrdinary, Shape.isInline]

theorem report_calm (kind : Finding.Kind) (subject message : String) :
    Calm c frames pending (report kind subject message) s fun _ s' =>
      ⟨kind, subject, message⟩ ∈ s'.graph.findings :=
  .modifyGraph (.single (.aside (aside_note le_rfl [⟨kind, subject, message⟩])))
    (List.mem_append_right _ List.mem_cons_self)

theorem initializerValue_calm (valid : Valid c s) (subject text : String)
    (comment : Option String) :
    Calm c frames pending (initializerValue subject text comment) s fun _ _ => True := by
  rw [initializerValue]
  split
  · exact .pure trivial
  · refine (report_calm _ _ _).bind valid fun _ _ _ _ _ => ?_
    split <;> exact .pure trivial

theorem enumMembers_calm (valid : Valid c s) (subject : String)
    (members : List (String × Option EnumValue)) :
    Calm c frames pending (enumMembers subject members) s fun _ _ => True := by
  rw [enumMembers]
  refine Calm.bind valid (.forEach valid fun entry _ valid' => ?_) fun _ _ _ _ _ => .pure trivial
  split
  · exact (report_calm _ _ _).bind valid' fun _ _ _ _ _ => .pure rfl
  · exact .pure rfl

variable (valid : Valid c s)
include valid

theorem primitive_calm (kind : Primitive) :
    Calm c frames pending (withGraph (·.primitive kind)) s fun id s' => Sealed c s' id := by
  have aside := @primitive_aside c _ valid.graph kind
  refine .withGraph (.single (.aside aside)) ?_
  rw [primitive]
  split
  · rename_i id known
    obtain ⟨node, found, strange⟩ := valid.keyed.primitives kind id known
    exact sealed_of_not_inline found (not_inline_of_isOrdinary strange)
  · exact sealed_of_not_inline (Array.getElem?_push_size ..) rfl

theorem primitiveUse_calm (kind : Primitive) :
    Calm c frames pending (primitiveUse kind) s fun use s' =>
      ∃ id, use = .ofNode id ∧ Sealed c s' id :=
  (primitive_calm valid kind).bind valid fun id _ _ _ sealed => .pure ⟨id, rfl, sealed⟩

theorem primitiveUse_inScope (kind : Primitive) (generics : List String) :
    Calm c frames pending (primitiveUse kind) s fun use s' => InScope c s' generics use := by
  refine (primitiveUse_calm valid kind).mono fun use s' _ outcome => ?_
  obtain ⟨id, rfl, sealed⟩ := outcome
  exact sealed.inScope generics

theorem orObject_calm {generics : List String} {found : Option Resolved}
    (fits : ∀ r, found = some r → InScope c s generics r.type) :
    Calm c frames pending (orObject found) s fun use s' => InScope c s' generics use := by
  cases found with
  | some r => exact .pure (fits r rfl)
  | none => exact primitiveUse_inScope valid .object _

omit valid in
theorem findUnion_calm (member : String) (hint : Option String) :
    Calm c frames pending (withGraph (·.findUnion member hint)) s fun found s' =>
      ∀ id, found = some id → Sealed c s' id := by
  have listed (id : NodeId) (node : Node) (entry : (id, node) ∈ s.graph.unionsWith member) :
      ∃ node, s.graph.nodes[id]? = some node ∧ node.isInline = false := by
    obtain ⟨live, has⟩ := List.mem_filter.mp entry
    refine ⟨node, (mem_liveNodes.mp live).2, ?_⟩
    revert has
    rw [Node.isInline]
    cases node.shape <;> simp [hasMember, Shape.isInline]
  have outcome : (∃ more, (s.graph.findUnion member hint).2 =
        { s.graph with findings := s.graph.findings ++ more }) ∧
      ∀ id, (s.graph.findUnion member hint).1 = some id →
        ∃ node, s.graph.nodes[id]? = some node ∧ node.isInline = false := by
    rw [findUnion]
    dsimp only
    split
    · rename_i id node only
      refine ⟨⟨[], by rw [List.append_nil]⟩, fun id' same => ?_⟩
      cases same
      have entry : (id, node) ∈ (s.graph.unionsWith member).filter
          fun entry => hint.any entry.2.isCalled := only ▸ List.mem_singleton_self _
      exact listed id node (List.mem_filter.mp entry).1
    · exact ⟨⟨[], by rw [List.append_nil]⟩, fun _ same => by cases same⟩
    · rename_i id node only _
      refine ⟨⟨[], by rw [List.append_nil]⟩, fun id' same => ?_⟩
      cases same
      exact listed id node (only ▸ List.mem_singleton_self _)
    · exact ⟨⟨_, rfl⟩, fun _ same => by cases same⟩
  obtain ⟨⟨more, same⟩, found⟩ := outcome
  refine .withGraph (.single (.aside ?_)) fun id known => ?_
  · rw [same]
    exact aside_note le_rfl more
  · obtain ⟨node, there, other⟩ := found id known
    refine sealed_of_not_inline ?_ other
    rw [same]
    exact there

theorem registerAnonymous_calm {name : String} (madeUp : MadeUp name) {shape : Shape}
    (ordinary : shape.isOrdinary = true) (other : shape.isRecord = false)
    (bare : shape.generics = []) (base : ∀ id, shape.base? = some id → id < s.graph.nodes.size)
    {generics : List String} (parts : ∀ u ∈ shape.ownUses, InScope c s generics u) (level : Nat) :
    Calm c frames pending (registerAnonymous name shape level) s fun id s' =>
      InScope c s' generics (.ofNode id) := by
  have inside : ∀ id ∈ shape.outgoing, id < s.graph.nodes.size := by
    intro id member
    rw [Shape.mem_outgoing, Shape.typeUses, bare] at member
    rcases member with own | ⟨u, listed, member⟩
    · exact base id own
    · exact (parts u listed).inside id member
  obtain ⟨id, g₁, g', ran, aside, nodes, outcome⟩ :=
    registerAnonymous_cases valid madeUp ordinary inside level
  unfold Calm
  rw [ran]
  have later := @Aside.later c s g₁ aside
  have first : Moves c ⟨frames, s⟩ ⟨frames, { s with graph := g₁ }⟩ := .single (.aside aside)
  have valid₁ : Valid c { s with graph := g₁ } := first.valid valid
  obtain ⟨clash, rfl, lt⟩ | ⟨node, nameless, rfl, rfl, rfl⟩ := outcome
  · refine ⟨.of_graph first, fun result same => ?_, fun _ same => by cases same⟩
    cases same
    exact .node (later.inside lt) (fun apart => absurd clash apart) fun _ member => by cases member
  · have parts₁ : ∀ u ∈ node.shape.ownUses, InScope c { s with graph := g₁ } generics u :=
      fun u listed => (parts u listed).later later valid.graph
    have move : Move c ⟨frames, { s with graph := g₁ }⟩
        ⟨frames, { s with graph := (g₁.push node).2 }⟩ := .inline nameless other parts₁
    have later₁ := move.later valid₁.toIntact
    refine ⟨.of_graph (first.tail move), fun result same => ?_, fun _ same => by cases same⟩
    cases same
    have found : (g₁.push node).2.nodes[s.graph.nodes.size]? = some node := by
      rw [← nodes]
      exact Array.getElem?_push_size
    refine ⟨fun id member => ?_, fun name mentions => ?_, fun apart sealed name occurs => ?_⟩
    · obtain rfl : id = s.graph.nodes.size := by
        simpa [TypeUse.ofNode, TypeUse.nodes, TypeUse.nodesOfAll] using member
      exact (Array.getElem?_eq_some_iff.mp found).1
    · simp [TypeUse.ofNode, TypeUse.mentions, TypeUse.anyMentions] at mentions
    · obtain ⟨node', found', -, u, listed, occurs⟩ := occurs.of_node
      rw [show _ = some node from found, Option.some_inj] at found'
      subst found'
      exact ((parts₁ u listed).later later₁ valid₁.graph).occurs apart sealed name occurs

theorem registerNamed_calm {fact : Fact} (mem : fact ∈ c.facts)
    (registers : (isSolid fact || isAlias fact) = true) {shape : Shape}
    (ordinary : shape.isOrdinary = true)
    (empty : shape.isRecord = true → shape = .record [] [])
    (inside : ∀ id ∈ shape.outgoing, id < s.graph.nodes.size) :
    Calm c frames pending (registerNamed fact shape) s fun id s' =>
      id < s'.graph.nodes.size ∧ (c.Clashes ∨ Owns s'.graph fact id) := by
  unfold Calm
  obtain ⟨e, ran, nameless⟩ | ⟨id, g₁, g', ran, aside, nodes, outcome⟩ :=
    registerNamed_cases valid mem registers ordinary inside
  · rw [ran]
    refine ⟨.refl, fun _ same => ?_, fun _ _ => nameless⟩
    cases same
  · rw [ran]
    have first : Moves c ⟨frames, s⟩ ⟨frames, { s with graph := g₁ }⟩ := .single (.aside aside)
    obtain ⟨rfl, lt, bears⟩ | ⟨visible, node, declared, rfl, rfl, rfl⟩ := outcome
    · refine ⟨.of_graph first, fun result same => ?_, fun _ same => by cases same⟩
      cases same
      have later := @Aside.later c s g' aside
      exact ⟨later.inside lt, bears.imp_right (·.later later)⟩
    · have isType := isType_of_registers registers
      refine ⟨.of_graph (first.tail (.declare mem isType declared empty)), fun result same => ?_,
        fun _ same => by cases same⟩
      cases same
      have found : (g₁.push node).2.nodes[s.graph.nodes.size]? = some node := by
        rw [← nodes]
        exact Array.getElem?_push_size
      refine ⟨(Array.getElem?_eq_some_iff.mp found).1,
        .inr ⟨visible, node, found, ?_, ordinary, ?_⟩⟩
      · rw [declared.declares.flags]
        rfl
      · exact .inl declared.declares

theorem unionBase_calm (arity : Nat) :
    Calm c frames pending (tryGraph (·.unionBase arity)) s fun id s' =>
      id < s'.graph.nodes.size := by
  refine .tryGraph (fun id g done => ?_) fun e failed => ?_
  · exact ⟨.single (.aside (unionBase_aside valid done)), (unionBase_steps valid.graph done).2⟩
  · have visible : Text.isBlankText (unionName arity).toList = false := by
      rw [unionName, isBlankText_append]
      rfl
    rw [unionBase] at failed
    split at failed
    · cases failed
    · cases registered : s.graph.register
          { name := unionName arity, shape := .classUnion arity,
            flags := { internal := true } } with
      | error e =>
        have blank := register_error registered
        rw [visible] at blank
        cases blank
      | ok pair =>
        rw [registered] at failed
        cases failed

end functions

/-! ### Initializers and enums -/

mutual

theorem inferUse_calm {c : Context} {frames : List Frame} {pending : List Nat} {s : State} :
    (value : Literal.Value) → Valid c s →
      Calm c frames pending (inferUse value) s fun use s' => InScope c s' [] use
  | .null, valid => by
    rw [inferUse]
    exact primitiveUse_inScope valid .object _
  | .bool _, valid => by
    rw [inferUse]
    exact primitiveUse_inScope valid .boolean _
  | .number _, valid => by
    rw [inferUse]
    exact primitiveUse_inScope valid .number _
  | .text _, valid => by
    rw [inferUse]
    exact primitiveUse_inScope valid .string _
  | .array items, valid => by
    rw [inferUse]
    refine Calm.bind valid (inferItems_calm none items valid fun _ same => by cases same)
      fun found s₁ _ valid₁ fits => ?_
    cases found with
    | some element => exact .pure ((fits element rfl).deepen 1)
    | none =>
      exact (primitiveUse_inScope valid₁ .object []).bind valid₁
        fun _ _ _ _ inScope => .pure (inScope.deepen 1)

theorem inferItems_calm {c : Context} {frames : List Frame} {pending : List Nat} {s : State} :
    (element : Option TypeUse) → (items : List Literal.Value) → Valid c s →
      (∀ u, element = some u → InScope c s [] u) →
      Calm c frames pending (inferItems element items) s fun found s' =>
        ∀ u, found = some u → InScope c s' [] u
  | element, [], valid, fits => by
    rw [inferItems]
    exact .pure fits
  | element, item :: rest, valid, fits => by
    rw [inferItems]
    split
    · exact inferItems_calm element rest valid fits
    · refine (inferUse_calm item valid).bind valid fun inferred s₁ reaches valid₁ inScope => ?_
      cases element with
      | none =>
        refine inferItems_calm (some inferred) rest valid₁ fun u same => ?_
        cases same
        exact inScope
      | some known =>
        have before := (fits known rfl).later (reaches.later valid) valid.graph
        dsimp only
        split
        · refine inferItems_calm (some known) rest valid₁ fun u same => ?_
          cases same
          exact before
        · refine (primitiveUse_inScope valid₁ .object []).bind valid₁
            fun object s₂ _ valid₂ inScope => ?_
          refine inferItems_calm (some object) rest valid₂ fun u same => ?_
          cases same
          exact inScope

end

/-- The node of every declaration that is entered is noted. -/
def Entering (c : Context) (pending : List Nat) (enter : Nat → Ingest (Option NodeId)) : Prop :=
  ∀ (frames : List Frame) (s : State) (place : Nat), Valid c s →
    Calm c frames pending (enter place) s fun found s' =>
      ∀ id, found = some id → s'.built.get? place = some id

section enums
variable {c : Context} {frames : List Frame} {pending : List Nat} {s : State}
  {enter : Nat → Ingest (Option NodeId)} (enters : Entering c pending enter) (valid : Valid c s)
include enters valid

theorem buildAll_calm (places : List Nat) :
    Calm c frames pending (buildAll enter places) s fun _ _ => True := by
  induction places generalizing s with
  | nil => exact .pure trivial
  | cons place rest ih =>
    rw [buildAll]
    have built : Calm c frames pending (do discard (enter place); return true) s fun _ _ => True :=
      ((enters frames s place valid).discard valid).bind valid fun _ _ _ _ _ => .pure trivial
    refine (Calm.tryCatch valid built fun _ _ _ _ => .pure trivial).bind valid
      fun fine s₁ _ valid₁ _ => ?_
    split
    · exact ih valid₁
    · exact .pure trivial

theorem existingEnum_calm (literals : List EnumLiteral) :
    Calm c frames pending (existingEnum c enter literals) s fun found s' =>
      ∀ id, found = some id → Sealed c s' id := by
  have missing {s : State} : Calm c frames pending (pure none) s fun found s' =>
      ∀ id, found = some id → Sealed c s' id := .pure fun _ same => by cases same
  rw [existingEnum.eq_def]
  split
  · exact missing
  · split
    · exact missing
    · refine (buildAll_calm enters valid _).bind valid fun fine s₁ _ valid₁ _ => ?_
      split
      · exact missing
      · refine (findUnion_calm _ _).bind valid₁ fun found s₂ _ valid₂ fits => ?_
        cases found with
        | none => exact missing
        | some id =>
          refine .getGraph_bind (.pure fun other same => ?_)
          split_ifs at same
          cases same
          exact fits id rfl

/-- What is known of the enum that a union of literals amounts to. A union of one literal is one of
texts. -/
def Amounts (c : Context) (s : State) (types : List TypeExpr) (union : LiteralUnion) : Prop :=
  (types.length = 1 → ∃ text, types = [.stringLiteral text]) ∧
    ∀ id, union = .existing id → Sealed c s id

theorem literalUnion_calm (subject : String) (types : List TypeExpr) :
    Calm c frames pending (literalUnion c enter subject types) s fun found s' =>
      ∀ union, found = some union → Amounts c s' types union := by
  have missing {s : State} : Calm c frames pending (pure none) s fun found s' =>
      ∀ union, found = some union → Amounts c s' types union := .pure fun _ same => by cases same
  rw [literalUnion]
  split
  · exact missing
  · split
    · rename_i texts known
      refine .pure fun union same => ?_
      cases same
      refine ⟨fun single => ?_, fun _ same => by cases same⟩
      obtain ⟨type, rfl⟩ := List.length_eq_one_iff.mp single
      cases type with
      | stringLiteral text => exact ⟨text, rfl⟩
      | _ => simp [literalTexts?] at known
    · split
      · exact missing
      · rename_i several
        split
        · exact missing
        · refine (existingEnum_calm enters valid _).bind valid fun found s₁ _ valid₁ fits => ?_
          cases found with
          | some id =>
            refine .pure fun union same => ?_
            cases same
            refine ⟨fun single => absurd single several, fun other same => ?_⟩
            cases same
            exact fits id rfl
          | none =>
            refine (enumMembers_calm valid₁ _ _).bind valid₁ fun members _ _ _ _ => ?_
            refine .pure fun union same => ?_
            cases same
            exact ⟨fun single => absurd single several, fun _ same => by cases same⟩

theorem enumOfLiteral_calm (enumName : Option String) (member : String) :
    Calm c frames pending (enumOfLiteral c enter enumName member) s fun found s' =>
      ∀ id, found = some id → Sealed c s' id := by
  rw [enumOfLiteral]
  refine Calm.bind valid (.forEach valid fun place s₁ valid₁ => ?_)
    fun _ _ _ _ _ => findUnion_calm _ _
  exact ((enters frames s₁ place valid₁).discard valid₁).bind valid₁ fun _ _ _ _ _ => .pure rfl

end enums

end Ingest

end TypeLoom
