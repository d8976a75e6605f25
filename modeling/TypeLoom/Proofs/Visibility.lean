import TypeLoom.Proofs.IngestSteps
import TypeLoom.Proofs.NameRestoration
import TypeLoom.Proofs.Representatives

/-! What public declarations denote. The node that was made for a public declaration is part of the
output, also if it was made for an earlier declaration of the same key that is public or to be
rendered, and whatever it has been merged with. A declaration that stands for another type does not
make that type part of the output. -/
namespace TypeLoom

namespace Ingest
open TypeLoom.Graph TypeLoom.Fact

/-- Every node with a name of its own was made for a declaration, and a declaration that does not
stand for another type has a node that bears it. -/
structure Attributed (c : Context) (s : State) : Prop where
  declared : ∀ (id : NodeId) (node : Node), s.graph.nodes[id]? = some node →
    node.flags.anonymous = false → node.shape.isOrdinary = true →
    ∃ fact ∈ c.facts, fact.isType = true ∧ Declares fact node
  bears : ∀ (place : Nat) (id : NodeId) (fact : Fact), c.facts[place]? = some fact →
    s.built.get? place = some id → ownsNode c fact = true → c.Clashes ∨ Owns s.graph fact id

section attributed
variable {c : Context} {σ σ' : Stage}

theorem Move.node_cases (move : Move c σ σ') {id : NodeId} {node : Node}
    (found : σ'.state.graph.nodes[id]? = some node) :
    (∃ before : Node, σ.state.graph.nodes[id]? = some before ∧
      node = { before with shape := node.shape } ∧ node.shape.label = before.shape.label) ∨
    node.shape.isOrdinary = false ∨ node.flags.anonymous = true ∨
    ∃ fact ∈ c.facts, fact.isType = true ∧ Declares fact node := by
  have pushed {g : Graph} {last : Node} (found : (g.push last).2.nodes[id]? = some node) :
      node = last ∨ ∃ before : Node, g.nodes[id]? = some before ∧
        node = { before with shape := node.shape } ∧ node.shape.label = before.shape.label := by
    rcases node_of_push found with ⟨-, same⟩ | old
    · exact .inl same
    · exact .inr ⟨node, old, rfl, rfl⟩
  have reshaped {g : Graph} {other : NodeId} {f : Shape → Shape}
      (grows : ∀ shape : Shape, shape.Grows (f shape))
      (found : (g.modifyShape other f).nodes[id]? = some node) :
      ∃ before : Node, g.nodes[id]? = some before ∧
        node = { before with shape := node.shape } ∧ node.shape.label = before.shape.label := by
    obtain ⟨before, there, rfl | rfl⟩ := node_of_modifyShape found
    · exact ⟨_, there, rfl, rfl⟩
    · exact ⟨before, there, rfl, (grows before.shape).label⟩
  cases move with
  | @aside _ s g aside =>
    cases there : s.graph.nodes[id]? with
    | none => exact .inr (.inl (aside.new id node found there))
    | some before =>
      obtain ⟨shape, found', grows, -⟩ := aside.old id before there
      rw [show g.nodes[id]? = some node from found, Option.some_inj] at found'
      subst found'
      exact .inl ⟨before, rfl, rfl, grows.label⟩
  | inline nameless _ _ | start nameless _ _ =>
    rcases pushed found with rfl | old
    · exact .inr (.inr (.inl nameless.anonymous))
    · exact .inl old
  | declare mem isType declared _ =>
    rcases pushed found with rfl | old
    · exact .inr (.inr (.inr ⟨_, mem, isType, declared.declares⟩))
    · exact .inl old
  | mistake _ _ | close _ _ | abandon _ | enter _ _ _ _ _ | mark _ _ _ _ =>
    exact .inl ⟨node, found, rfl, rfl⟩
  | value _ _ => exact .inl (reshaped (fun shape => shape.grows_setDictionaryValue _) found)
  | parameter _ _ => exact .inl (reshaped (fun shape => shape.grows_addParameter _) found)
  | property _ _ _ _ _ _ _ => exact .inl (reshaped (fun shape => shape.grows_addProperty _) found)
  | take _ _ _ _ _ => exact .inl (reshaped (fun shape => shape.grows_addParameter _) found)

theorem Move.built_cases (move : Move c σ σ') {place : Nat} {id : NodeId} {fact : Fact}
    (there : c.facts[place]? = some fact) (known : σ'.state.built.get? place = some id) :
    σ.state.built.get? place = some id ∨
      (ownsNode c fact = true → c.Clashes ∨ Owns σ'.state.graph fact id) := by
  have noted {t : Table Nat NodeId} {other : Nat} {found : NodeId}
      (known : (t.insert other found).get? place = some id) :
      other = place ∧ found = id ∨ t.get? place = some id := by
    rw [Table.get?_insert] at known
    split_ifs at known with same
    · exact .inl ⟨same.symm, Option.some.inj known⟩
    · exact .inr known
  cases move with
  | enter there' _ _ _ bears =>
    obtain ⟨rfl, rfl⟩ | old := noted known
    · rw [there, Option.some_inj] at there'
      subst there'
      exact .inr fun _ => bears
    · exact .inl old
  | mark there' _ _ bears =>
    obtain ⟨rfl, rfl⟩ | old := noted known
    · rw [there, Option.some_inj] at there'
      subst there'
      exact .inr bears
    · exact .inl old
  | _ => exact .inl known

theorem Move.attributed (move : Move c σ σ') (valid : Valid c σ.state)
    (attributed : Attributed c σ.state) : Attributed c σ'.state where
  declared id node found named ordinary := by
    obtain ⟨before, there, same, label⟩ | strange | anonymous | declared := move.node_cases found
    · rw [same] at named
      rw [Shape.isOrdinary_of_label label] at ordinary
      obtain ⟨fact, mem, isType, declares⟩ := attributed.declared id before there named ordinary
      refine ⟨fact, mem, isType, ?_, ?_⟩
      · rw [same]
        exact declares.flags
      · rw [same]
        exact declares.key
    · rw [strange] at ordinary
      cases ordinary
    · rw [anonymous] at named
      cases named
    · exact declared
  bears place id fact there known own := by
    rcases move.built_cases there known with old | bears
    · exact (attributed.bears place id fact there old own).imp_right
        (·.later (move.later valid.toIntact))
    · exact bears own

theorem Moves.attributed (moves : Moves c σ σ') (valid : Valid c σ.state)
    (attributed : Attributed c σ.state) : Attributed c σ'.state := by
  induction moves with
  | refl => exact attributed
  | tail before move ih => exact move.attributed (Moves.valid before valid) ih

theorem ingestion_attributed (settings : Settings) (facts : List Fact) :
    Attributed ⟨settings, facts⟩ (ingestion settings facts).2 := by
  refine (ingestion_moves settings facts).1.attributed (valid_empty _) ⟨?_, ?_⟩
  · intro _ _ found
    cases found
  · intro _ _ _ _ found
    cases found

end attributed

/-- If the computation returns at all, it returns something. -/
def Finds {α : Type} (m : Ingest (Option α)) : Prop :=
  ∀ s found, (m.run.run s).1 = .ok found → found.isSome = true

section finds
variable {α β : Type}

theorem Finds.bind {m : Ingest β} {f : β → Ingest (Option α)} (each : ∀ result, Finds (f result)) :
    Finds (m >>= f) := by
  intro s found same
  rw [ExceptT.run_bind, StateT.run_bind] at same
  generalize m.run.run s = outcome at same
  obtain ⟨result, s₁⟩ := outcome
  cases result with
  | error e => cases same
  | ok result => exact each result s₁ found same

theorem Finds.andThen {m : Ingest (Option β)} {f : Option β → Ingest (Option α)} (first : Finds m)
    (each : ∀ result, Finds (f (some result))) : Finds (m >>= f) := by
  intro s found same
  have some := first s
  rw [ExceptT.run_bind, StateT.run_bind] at same
  generalize m.run.run s = outcome at same some
  obtain ⟨result, s₁⟩ := outcome
  cases result with
  | error e => cases same
  | ok result =>
    obtain ⟨value, rfl⟩ := Option.isSome_iff_exists.mp (some result rfl)
    exact each value s₁ found same

theorem finds_some (value : α) : Finds (pure (some value)) := by
  intro s found same
  cases same
  rfl

end finds

theorem declareFact_finds {c : Context} {enter : Nat → Ingest (Option NodeId)} {place : Nat}
    {fact : Fact} (solid : isSolid fact = true) : Finds (declareFact c enter place fact) := by
  rw [declareFact]
  rw [isSolid] at solid
  split at solid
  · rename_i body
    rw [body]
    exact .bind fun _ => .bind fun _ => finds_some _
  · rename_i properties signatures body
    rw [body]
    dsimp only
    by_cases dictionary : ∃ signature, properties = [] ∧ signatures = [signature]
    · obtain ⟨signature, rfl, rfl⟩ := dictionary
      rw [declareType]
      exact .bind fun _ => finds_some _
    · rw [declareType]
      · exact .bind fun _ => finds_some _
      · exact fun signature empty single => dictionary ⟨signature, empty, single⟩
  · rename_i body
    rw [body]
    exact .bind fun _ => .bind fun _ => .bind fun _ => .bind fun _ => finds_some _
  · rename_i body
    rw [body]
    exact .bind fun _ => .bind fun _ => .bind fun _ => finds_some _
  · cases solid

theorem declaration_finds {c : Context} {level place : Nat} {fact : Fact}
    (there : c.facts[place]? = some fact) (solid : isSolid fact = true) :
    Finds (declaration c (level + 1) [] place) := by
  rw [declaration]
  refine .bind fun known => ?_
  cases known with
  | some id => exact finds_some id
  | none =>
    simp only [List.contains_nil, Bool.false_eq_true, if_false, there]
    exact (declareFact_finds solid).andThen fun id => .bind fun _ => finds_some id

theorem declaration_builds {c : Context} {s : State} (valid : Valid c s) (place : Nat) :
    Calm c [] [] (declaration c c.facts.length [] place) s fun _ s' =>
      ∀ fact, c.facts[place]? = some fact → isSolid fact = true →
        ∃ id, s'.built.get? place = some id := by
  have entered := declaration_calm c c.facts.length [] [] s place valid
  refine ⟨entered.1, fun found same fact there solid => ?_, entered.2.2⟩
  obtain ⟨level, isLevel⟩ := Nat.exists_eq_add_one_of_ne_zero
    (Nat.ne_zero_of_lt (List.getElem?_eq_some_iff.mp there).1)
  have finds : Finds (declaration c c.facts.length [] place) := by
    rw [isLevel]
    exact declaration_finds there solid
  obtain ⟨id, rfl⟩ := Option.isSome_iff_exists.mp (finds s found same)
  exact ⟨id, entered.2.1 _ same id rfl⟩

theorem ingestion_built {settings : Settings} {facts : List Fact}
    (ingested : (ingestion settings facts).1 = .ok ()) {place : Nat} {fact : Fact}
    (there : facts[place]? = some fact) (solid : isSolid fact = true) :
    ∃ id, (ingestion settings facts).2.built.get? place = some id := by
  let c : Context := ⟨settings, facts⟩
  have calm : Calm c [] [] (buildFacts c) { graph := .empty } fun _ s' =>
      ∀ place ∈ List.range facts.length, ∀ fact, facts[place]? = some fact → isSolid fact = true →
        ∃ id, s'.built.get? place = some id := by
    rw [buildFacts]
    refine Calm.bind (valid_empty c) (.loop (fun done s' => ∀ place ∈ done, ∀ fact,
      facts[place]? = some fact → isSolid fact = true → ∃ id, s'.built.get? place = some id)
      (valid_empty c) (by simp) fun before place after s₁ _ valid known => ?_)
      fun _ _ _ _ known => .pure known
    have built := declaration_builds valid place
    refine (Calm.map valid (built.mono fun _ s' reaches here => ?_)).bind valid
      fun _ _ _ _ known => .pure ⟨rfl, known⟩
    intro other listed fact there solid
    rcases List.mem_append.mp listed with earlier | last
    · obtain ⟨id, noted⟩ := known other earlier fact there solid
      exact ⟨id, (reaches.later valid).built other id noted⟩
    · rw [List.mem_singleton.mp last] at there ⊢
      exact here fact there solid
  exact calm.2.1 () ingested place (List.mem_range.mpr (List.getElem?_eq_some_iff.mp there).1) fact
    there solid

/-- All declarations that may stand for another type have names. -/
def Context.NamedAliases (c : Context) : Prop :=
  ∀ fact ∈ c.facts, isAlias fact = true → Text.isBlankText fact.name.toList = false

/-- If an ingest succeeds, no declaration with a node of its own lacks a name. Of those that stand
for other types this has to be known, as they may be refused at one place and accepted at another.
-/
theorem ingestion_named {settings : Settings} {facts : List Fact}
    (apart : ¬ Context.Clashes ⟨settings, facts⟩)
    (ingested : (ingestion settings facts).1 = .ok ())
    (aliases : Context.NamedAliases ⟨settings, facts⟩) : Context.Named ⟨settings, facts⟩ := by
  intro fact mem registers
  rcases (Bool.or_eq_true _ _).mp registers with solid | isAlias
  · obtain ⟨place, there⟩ := List.mem_iff_getElem?.mp mem
    obtain ⟨id, built⟩ := ingestion_built ingested there solid
    have own : ownsNode ⟨settings, facts⟩ fact = true := by
      rw [isSolid] at solid
      rw [ownsNode]
      split at solid <;> simp_all
    exact (((ingestion_attributed settings facts).bears place id fact there built own).resolve_left
      apart).visible
  · exact aliases fact mem isAlias

/-- Type declarations with the key of this one are public or to be rendered. -/
def Context.Shows (c : Context) (fact : Fact) : Prop :=
  ∀ other ∈ c.facts, other.isType = true → ∀ key, fact.key? = some key → other.key? = some key →
    other.isPublic = true ∨ other.shouldRender = true

theorem isRoot_of_bears {c : Context} {s : State} (attributed : Attributed c s)
    (apart : ¬ c.Clashes) {fact : Fact} (mem : fact ∈ c.facts) (isType : fact.isType = true)
    (isPublic : fact.isPublic = true) (shows : c.Shows fact) {id : NodeId}
    (bears : Bears s.graph fact id) :
    ∃ node, s.graph.nodes[id]? = some node ∧ node.isRoot = true := by
  obtain ⟨node, found, named, ordinary, declares | key⟩ := bears
  · refine ⟨node, found, ?_⟩
    rw [Node.isRoot, declares.flags, flags, isPublic, Bool.true_or]
  · obtain ⟨other, listed, otherType, declares⟩ :=
      attributed.declared id node found named ordinary
    refine ⟨node, found, ?_⟩
    rcases declares.key with same | ⟨-, n, issued⟩
    · rw [Node.isRoot, declares.flags, flags, Bool.or_eq_true]
      exact shows other listed otherType node.key key same
    · exact absurd ⟨other.name, n, fact, mem, isType, issued ▸ key⟩ apart

end Ingest

namespace Conversion
open TypeLoom.Graph TypeLoom.Ingest

/-- What a public declaration denotes is part of the output if it is a node that was made for it, or
for a declaration of its key: so for objects, enums, arrays and tuples, and for declarations that
stand for an array or for a type with arguments. -/
theorem buildWith_keeps_public {hash : Hash} {settings : Settings} {facts : List Fact} {g : Graph}
    (built : buildWith hash settings facts = .ok g)
    (apart : ¬ Context.Clashes ⟨settings, facts⟩) {place : Nat} {fact : Fact}
    (there : facts[place]? = some fact) (isType : fact.isType = true)
    (isPublic : fact.isPublic = true) (shows : Context.Shows ⟨settings, facts⟩ fact) {id : NodeId}
    (denotes : (ingestion settings facts).2.built.get? place = some id)
    (own : ownsNode ⟨settings, facts⟩ fact = true ∨
      Bears (ingestion settings facts).2.graph fact id) :
    ∃ ids, g.retained = some ids ∧ g.resolve id ∈ ids := by
  have attributed := ingestion_attributed settings facts
  have bears : Bears (ingestion settings facts).2.graph fact id := own.elim
    (fun own => ((attributed.bears place id fact there denotes own).resolve_left apart).bears)
    fun bears => bears
  obtain ⟨node, found, root⟩ := isRoot_of_bears attributed apart (List.mem_of_getElem? there) isType
    isPublic shows bears
  have inside : id < (ingestion settings facts).2.graph.nodes.size :=
    (Array.getElem?_eq_some_iff.mp found).1
  have intact := Steps.intact (ingest_steps settings facts) empty_intact
  have keeps := consolidate_keeps hash (ingestion settings facts).2.graph
  have sound := keeps.sound intact.sound
  obtain ⟨kept, isKept, isRoot⟩ := consolidate_root hash intact.sound
    ((intact.isLive_iff_lt id).mpr inside) found root
  rw [buildWith_eq_ok built, (prune_quiet _).resolve_eq]
  exact prune_root (sound.isLive_resolve (inside.trans_le (keeps.grows intact.sound))) isKept isRoot

/-- A record that is to be rendered, and a public declaration of the same key. -/
def reopened : List Fact := [
  { Fact.ofType "Page" (.object [] []) with origin := some "m", render := some true },
  { Fact.ofType "Page" (.object [{ name := "id", type := .primitive .number }] []) with
    origin := some "m", isPublic := true }]

theorem reopened_key : ∀ fact ∈ reopened, fact.key? = some "Page#m" := by decide

theorem reopened_apart : ¬ Context.Clashes ⟨{}, reopened⟩ := by
  rintro ⟨name, n, fact, mem, -, key⟩
  rw [reopened_key fact mem, Option.some_inj] at key
  have letter : 'y' ∈ (issuedKey name n).toList := by simp [issuedKey]
  rw [← key] at letter
  revert letter
  decide

theorem buildWith_keeps_public_reopened : ∃ g, buildWith checksum {} reopened = .ok g ∧
    (ingestion {} reopened).2.built.get? 1 = some 0 ∧
    ∃ ids, g.retained = some ids ∧ g.resolve 0 ∈ ids := by
  have denotes : (ingestion {} reopened).2.built.get? 1 = some 0 := by decide +kernel
  have done : (buildWith checksum {} reopened).isOk = true := by decide +kernel
  have shows : ∀ other ∈ reopened, other.isPublic = true ∨ other.shouldRender = true := by decide
  cases built : buildWith checksum {} reopened with
  | error cause =>
    rw [built] at done
    cases done
  | ok g =>
    exact ⟨g, rfl, denotes, buildWith_keeps_public built reopened_apart rfl rfl rfl
      (fun other mem _ _ _ _ => shows other mem) denotes (.inl rfl)⟩

/-- A public declaration that stands for a record, and public declarations of records that have been
declared before, not for the output: with an origin, and with what passes for a made-up one. -/
def hidden : List (List Fact) := [
  [.ofType "B" (.object [] []),
    { Fact.ofType "A" (.reference "B" none []) with isPublic := true }],
  [{ Fact.ofType "A" (.object [] []) with origin := some "m" },
    { Fact.ofType "A" (.object [] []) with origin := some "m", isPublic := true }],
  [.ofType "A" (.object [] []),
    { Fact.ofType "A" (.object [] []) with origin := some "synthetic-1", isPublic := true }]]

/-- None of these makes its record part of the output. -/
theorem public_not_retained : hidden.Forall fun facts => (facts[1]?).any Fact.isPublic = true ∧
    (ingestion {} facts).2.built.get? 1 = some 0 ∧
    (buildWith checksum {} facts).map (fun g => (g.resolve 0, g.retained)) = .ok (0, some []) :=
  List.forall_iff_forall_mem.mpr (by decide +kernel)

end Conversion

end TypeLoom
