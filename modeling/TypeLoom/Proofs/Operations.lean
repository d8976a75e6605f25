import TypeLoom.Digest.Sha256
import TypeLoom.Graph.Prune
import TypeLoom.Proofs.Consolidation

/-! Everything that can be done to a graph from outside, in any order. A graph that begins empty
keeps sound redirects and a sound digest cache whatever is done to it; as long as operations name
existing nodes only, its references stay inside the graph. Main results: what a consolidation brings
about, and that digests do not depend on what was asked before. -/
namespace TypeLoom.Graph

/-- Neither shapes and redirects nor the cache have changed. -/
structure Quiet (g g' : Graph) : Prop extends SameShapes g g' where
  cache : g'.cache = g.cache

namespace Quiet
variable {g g' g'' : Graph}

theorem refl (g : Graph) : Quiet g g := ⟨.refl g, rfl⟩

theorem trans (first : Quiet g g') (second : Quiet g' g'') : Quiet g g'' :=
  ⟨first.toSameShapes.trans second.toSameShapes, second.cache.trans first.cache⟩

end Quiet

theorem report_quiet (g : Graph) (kind : Finding.Kind) (subject message : String) :
    Quiet g (g.report kind subject message) := ⟨⟨rfl, rfl⟩, rfl⟩

theorem modifyNode_quiet (g : Graph) (id : NodeId) {change : Node → Node}
    (keep : ∀ node, (change node).shape = node.shape) : Quiet g (g.modifyNode id change) :=
  ⟨⟨rfl, map_modifyNode g id keep⟩, rfl⟩

theorem freeName_quiet (g : Graph) (id : NodeId) (name : String) :
    Quiet g (g.freeName id name) := by
  rw [freeName]
  split_ifs
  · exact ⟨⟨rfl, rfl⟩, rfl⟩
  · exact .refl g

theorem markDescendants_quiet (g : Graph) (retained : List NodeId) :
    Quiet g (g.markDescendants retained) := by
  rw [markDescendants]
  generalize retained.flatMap g.outgoing = ids
  induction ids generalizing g with
  | nil => exact .refl g
  | cons id rest ih =>
    refine Quiet.trans ?_ (ih _)
    exact modifyNode_quiet g id fun _ => rfl

theorem rename_quiet (g : Graph) (id : NodeId) (name : String) : Quiet g (g.rename id name) := by
  rw [rename]
  cases g.nodes[id]? with
  | none => exact .refl g
  | some node =>
    have changed : Quiet g (g.modifyNode id fun n => { n with name := name }) :=
      modifyNode_quiet g id fun _ => rfl
    exact (changed.trans (freeName_quiet _ id node.name)).trans ⟨⟨rfl, rfl⟩, rfl⟩

theorem restoreNames_quiet (g : Graph) (taken : List String) (ids : List NodeId) :
    Quiet g (restoreNames g taken ids) := by
  induction ids generalizing g taken with
  | nil => exact .refl g
  | cons id rest ih =>
    rw [restoreNames]
    cases g.nodes[id]? with
    | none => exact ih g taken
    | some node =>
      dsimp only
      cases node.formerName with
      | none => exact ih g taken
      | some former =>
        dsimp only
        split_ifs with inUse
        · exact ih g taken
        · refine Quiet.trans ?_ (ih _ _)
          exact (rename_quiet g id former).trans (modifyNode_quiet _ id fun _ => rfl)

theorem recordEdges_quiet (g : Graph) : Quiet g g.recordEdges := ⟨recordEdges_same g, rfl⟩

theorem withRetained_quiet (g : Graph) (retained : Option (List NodeId)) :
    Quiet g { g with retained := retained } := ⟨⟨rfl, rfl⟩, rfl⟩

theorem prune_quiet (g : Graph) : Quiet g g.prune.2 := by
  have marked := (recordEdges_quiet g).trans (markDescendants_quiet _ g.recordEdges.reachable)
  rw [prune]
  dsimp only
  exact (marked.trans (withRetained_quiet _ _)).trans (restoreNames_quiet _ _ _)

/-- A change that brings in references to the nodes `given` and keeps the graph in order. -/
structure Keeps (hash : Hash) (given : List NodeId) (g g' : Graph) : Prop where
  grows : g.Sound → g.nodes.size ≤ g'.nodes.size
  sound : g.Sound → g'.Sound
  cache : g.Sound → CacheSound hash g → CacheSound hash g'
  closed : g.Sound → (∀ id ∈ given, id < g.nodes.size) → g.Closed → g'.Closed

namespace Keeps
variable {hash : Hash} {given : List NodeId} {g g' g'' : Graph}

theorem of_quiet (quiet : Quiet g g') : Keeps hash given g g' where
  grows _ := quiet.size_eq.ge
  sound := quiet.toSameShapes.sound
  cache _ cache := cache.of_same quiet.toSameShapes quiet.cache
  closed _ _ closed := closed.of_shapes quiet.shapes

theorem refl (g : Graph) : Keeps hash given g g := .of_quiet (.refl g)

theorem mono (keeps : Keeps hash given g g') {more : List NodeId} (subset : given ⊆ more) :
    Keeps hash more g g' :=
  { keeps with closed :=
    fun sound bounded => keeps.closed sound fun id member => bounded id (subset member) }

theorem trans (first : Keeps hash given g g') (second : Keeps hash given g' g'') :
    Keeps hash given g g'' where
  grows sound := (first.grows sound).trans (second.grows (first.sound sound))
  sound sound := second.sound (first.sound sound)
  cache sound cache := second.cache (first.sound sound) (first.cache sound cache)
  closed sound bounded closed := second.closed (first.sound sound)
    (fun id member => (bounded id member).trans_le (first.grows sound))
    (first.closed sound bounded closed)

end Keeps

section functions
variable (hash : Hash) (g : Graph)

theorem Closed.of_push {g g' : Graph} {node : Node} (closed : g.Closed)
    (nodes : g'.nodes = g.nodes.push node)
    (bounded : ∀ id ∈ node.shape.outgoing, id < g.nodes.size) : g'.Closed := by
  intro id other found target member
  rw [nodes, Array.getElem?_push] at found
  rw [nodes, Array.size_push]
  apply Nat.lt_succ_of_lt
  split_ifs at found with last
  · cases found
    exact bounded target member
  · exact closed found target member

theorem push_keeps (node : Node) : Keeps hash node.shape.outgoing g (g.push node).2 where
  grows _ := by simp [push, touch]
  sound sound := sound.mono (by simp [push, touch])
  cache _ _ := .of_stale rfl
  closed _ bounded closed := closed.of_push rfl bounded

theorem supplant_keeps (old : NodeId) (node : Node) :
    Keeps hash node.shape.outgoing g (g.supplant old node).2 := by
  rw [supplant]
  cases found : g.nodes[old]? with
  | none => exact push_keeps hash g node
  | some before =>
    have nodes : (g.freeName old before.name).nodes = g.nodes := freeName_nodes g old before.name
    have redirects : (g.freeName old before.name).redirects = g.redirects :=
      freeName_redirects g old before.name
    have lt : old < g.nodes.size := (Array.getElem?_eq_some_iff.mp found).1
    refine ⟨fun _ => ?_, fun sound => ?_, fun _ _ => .of_empty rfl, fun _ bounded closed => ?_⟩
    · simp [push, touch, forgetDigests]
    · have wider := sound.mono (Nat.le_succ g.nodes.size)
      have free : g.redirects.get? g.nodes.size = none :=
        Option.eq_none_iff_forall_ne_some.mpr fun next redirect =>
          (SoundRedirects.source_lt sound redirect).false
      have inserted := wider.insert (lt.trans (Nat.lt_succ_self _)) (Nat.lt_succ_self _) free lt.ne'
      simpa [Sound, push, touch, forgetDigests, nodes, redirects] using inserted
    · exact closed.of_push (by simp [push, touch, forgetDigests]) bounded

theorem settle_keeps (steps : Nat) (node : Node) :
    Keeps hash node.shape.outgoing g (settle steps g node).2 := by
  induction steps generalizing g node with
  | zero => exact push_keeps hash g node
  | succ steps ih =>
    rw [settle]
    cases g.liveByName node.name with
    | none => exact push_keeps hash g node
    | some other =>
      dsimp only
      cases g.nodes[other]? with
      | none => exact push_keeps hash g node
      | some taken =>
        dsimp only
        split_ifs with union better
        · exact supplant_keeps hash g other node
        · exact .of_quiet ⟨⟨rfl, rfl⟩, rfl⟩
        · exact (Keeps.of_quiet (report_quiet g _ _ _)).trans (ih _ { node with
            name := renamed node, formerName := some (node.formerName.getD node.name) })

theorem identify_spec {g g' : Graph} {node node' : Node}
    (done : g.identify node = .ok (node', g')) : node'.shape = node.shape ∧ Quiet g g' := by
  rw [identify] at done
  split at done
  · cases done
    exact ⟨rfl, .refl g⟩
  · cases done
    exact ⟨rfl, .refl g⟩
  · split_ifs at done
    split at done
    · cases done
      exact ⟨rfl, .refl g⟩
    · cases done
      exact ⟨rfl, ⟨rfl, rfl⟩, rfl⟩

theorem ok_of_bind {ε α β : Type} {first : Except ε α} {second : α → Except ε β} {result : β}
    (done : first >>= second = .ok result) : ∃ x, first = .ok x ∧ second x = .ok result := by
  cases first with
  | error e => cases done
  | ok x => exact ⟨x, rfl, done⟩

theorem register_keeps {g g' : Graph} {node : Node} {id : NodeId}
    (done : g.register node = .ok (id, g')) : Keeps hash node.shape.outgoing g g' := by
  obtain ⟨⟨named, g₁⟩, identified, done⟩ := ok_of_bind done
  obtain ⟨shape, quiet⟩ := identify_spec identified
  rw [← shape]
  refine (Keeps.of_quiet quiet).trans ?_
  dsimp only at done
  split at done
  · cases done
    exact .refl _
  · split_ifs at done
    · cases done
      exact push_keeps hash g₁ named
    · have settled := settle_keeps hash g₁ (g₁.names.size + 1) named
      rwa [Except.ok.inj done] at settled

theorem replace_keeps {g g' : Graph} {key : String} {node : Node} {id : Option NodeId}
    (done : g.replace key node = .ok (id, g')) : Keeps hash node.shape.outgoing g g' := by
  rw [replace] at done
  split at done
  · cases done
    exact .refl g
  · obtain ⟨⟨named, g₁⟩, identified, done⟩ := ok_of_bind done
    obtain ⟨shape, quiet⟩ := identify_spec identified
    cases done
    exact (Keeps.of_quiet quiet).trans (shape ▸ supplant_keeps hash g₁ _ named)

theorem primitive_keeps (kind : Primitive) : Keeps hash [] g (g.primitive kind).2 := by
  rw [primitive]
  split
  · exact .refl g
  · have pushed := push_keeps hash g
      { name := kind.label, key := kind.label, shape := .primitive kind }
    exact pushed.trans (.of_quiet ⟨⟨rfl, rfl⟩, rfl⟩)

theorem unionBase_keeps {g g' : Graph} {arity : Nat} {id : NodeId}
    (done : g.unionBase arity = .ok (id, g')) : Keeps hash [] g g' := by
  rw [unionBase] at done
  split at done
  · cases done
    exact .refl g
  · obtain ⟨⟨base, g₁⟩, registered, done⟩ := ok_of_bind done
    cases done
    exact (register_keeps hash registered).trans (.of_quiet ⟨⟨rfl, rfl⟩, rfl⟩)

theorem modifyNode_touch_keeps (given : List NodeId) (id : NodeId) (change : Node → Node)
    (brought : ∀ node, g.nodes[id]? = some node → ∀ other ∈ (change node).shape.outgoing,
      other ∈ node.shape.outgoing ∨ other ∈ given) :
    Keeps hash given g (g.modifyNode id change).touch where
  grows _ := by simp [modifyNode, touch]
  sound sound := by simpa [Sound, modifyNode, touch] using sound
  cache _ _ := .of_stale rfl
  closed _ bounded closed := by
    intro place node found other member
    have size : (g.modifyNode id change).touch.nodes.size = g.nodes.size := by
      simp [modifyNode, touch]
    have changed : (g.modifyNode id change).touch.nodes[place]? =
        if id = place then (g.nodes[place]?).map change else g.nodes[place]? := by
      simp [modifyNode, touch, Array.getElem?_modify]
    rw [size]
    rw [changed] at found
    split_ifs at found with same
    · subst same
      obtain ⟨before, old, rfl⟩ := Option.map_eq_some_iff.mp found
      rcases brought before old other member with inside | given
      · exact closed old other inside
      · exact bounded other given
    · exact closed found other member

theorem modifyShape_keeps (given : List NodeId) (id : NodeId) (change : Shape → Shape)
    (brought : ∀ shape, ∀ other ∈ (change shape).outgoing, other ∈ shape.outgoing ∨ other ∈ given) :
    Keeps hash given g (g.modifyShape id change) :=
  modifyNode_touch_keeps hash g given _ _ fun node _ => brought node.shape

theorem addConstant_keeps (constant : Constant) :
    Keeps hash constant.type.nodes g (g.addConstant constant).2 := by
  have made : Keeps hash constant.type.nodes g g.constantsNode.2 := by
    rw [constantsNode]
    split
    · exact .refl g
    · have pushed := push_keeps hash g
        (Node.asPublic { name := constantsKey, key := constantsKey, shape := .constants [] })
      exact (pushed.mono (List.nil_subset _)).trans (.of_quiet ⟨⟨rfl, rfl⟩, rfl⟩)
  exact made.trans (modifyNode_touch_keeps hash _ _ _ _ fun node _ other member =>
    Shape.mem_outgoing_addConstant member)

theorem digest_keeps (id : NodeId) : Keeps hash [] g (g.digest hash id).2 := by
  obtain ⟨cache, frame⟩ := digest_frame hash g id
  refine ⟨fun _ => ?_, fun sound => ?_, fun _ cacheSound => (cacheSound.digest_spec id).2.1,
    fun _ _ closed => ?_⟩
  · rw [frame]
  · rw [frame]
    exact sound
  · rw [frame]
    exact closed

theorem consolidate_keeps : Keeps hash [] g (g.consolidate hash).2 where
  grows sound := (consolidate_shrinks hash sound).size.ge
  sound sound := (consolidate_shrinks hash sound).sound
  cache sound _ := by
    obtain ⟨before, -, -, -, result⟩ := consolidate_last hash sound
    rw [result]
    exact (compared_cacheSound hash before).of_same (recordEdges_same _) (recordEdges_quiet _).cache
  closed sound _ := (consolidate_shrinks hash sound).closed

end functions

/-- What can be done to a graph. -/
inductive Operation where
  | primitive (kind : Primitive)
  | register (node : Node)
  | replace (key : String) (node : Node)
  | unionBase (arity : Nat)
  | addProperty (id : NodeId) (property : Property)
  | addMember (id : NodeId) (member : Member)
  | addParameter (id : NodeId) (parameter : Parameter)
  | addConstant (constant : Constant)
  /-- Any change to a single node. -/
  | modify (id : NodeId) (change : Node → Node)
  | findUnion (member : String) (hint : Option String)
  | changeFindings (change : List Finding → List Finding)
  | digest (id : NodeId)
  | forgetDigests
  | consolidate
  | prune

namespace Operation

/-- The graph that a computation has led to; one that fails changes nothing. -/
def outcome {α : Type} (g : Graph) : Except MissingIdentity (α × Graph) → Graph
  | .ok (_, g') => g'
  | .error _ => g

def run (hash : Hash) (g : Graph) : Operation → Graph
  | primitive kind => (g.primitive kind).2
  | register node => outcome g (g.register node)
  | replace key node => outcome g (g.replace key node)
  | unionBase arity => outcome g (g.unionBase arity)
  | addProperty id property => g.addProperty id property
  | addMember id member => g.addMember id member
  | addParameter id parameter => g.addParameter id parameter
  | addConstant constant => (g.addConstant constant).2
  | modify id change => (g.modifyNode (g.resolve id) change).touch
  | findUnion member hint => (g.findUnion member hint).2
  | changeFindings change => { g with findings := change g.findings }
  | digest id => (g.digest hash id).2
  | forgetDigests => g.forgetDigests
  | consolidate => (g.consolidate hash).2
  | prune => g.prune.2

/-- The nodes that an operation names, by itself or in what it brings in. -/
def named (g : Graph) : Operation → List NodeId
  | register node | replace _ node => node.shape.outgoing
  | addProperty id property => id :: property.type.nodes
  | addMember id _ | digest id => [id]
  | addParameter id parameter => id :: (parameter.default.map TypeUse.nodes).getD []
  | addConstant constant => constant.type.nodes
  | modify id change => id :: ((g.node? id).map fun node => (change node).shape.outgoing).getD []
  | primitive _ | unionBase _ | findUnion .. | changeFindings _ | forgetDigests | consolidate
  | prune => []

theorem outcome_keeps {α : Type} {hash : Hash} {given : List NodeId} {g : Graph}
    (result : Except MissingIdentity (α × Graph))
    (keeps : ∀ {x g'}, result = .ok (x, g') → Keeps hash given g g') :
    Keeps hash given g (outcome g result) := by
  cases result with
  | error e => exact .refl g
  | ok pair => exact keeps rfl

theorem findUnion_quiet (g : Graph) (member : String) (hint : Option String) :
    Quiet g (g.findUnion member hint).2 := by
  rw [Graph.findUnion]
  dsimp only
  split
  · exact .refl g
  · exact .refl g
  · exact .refl g
  · exact report_quiet g _ _ _

theorem run_keeps (hash : Hash) (g : Graph) (op : Operation) :
    Keeps hash (op.named g) g (op.run hash g) := by
  cases op with
  | primitive kind => exact primitive_keeps hash g kind
  | register node => exact outcome_keeps _ (register_keeps hash)
  | replace key node => exact outcome_keeps _ (replace_keeps hash)
  | unionBase arity => exact outcome_keeps _ (unionBase_keeps hash)
  | addProperty id property =>
    refine modifyShape_keeps hash g (id :: property.type.nodes) id (Shape.addProperty · property) ?_
    exact fun shape other member =>
      (Shape.mem_outgoing_addProperty member).imp_right (List.mem_cons_of_mem id)
  | addMember id member =>
    refine modifyShape_keeps hash g [id] id (Shape.addMember · member) ?_
    exact fun shape other inside => .inl (Shape.mem_outgoing_addMember inside)
  | addParameter id parameter =>
    refine modifyShape_keeps hash g (id :: (parameter.default.map TypeUse.nodes).getD []) id
      (Shape.addParameter · parameter) fun shape other member => ?_
    rcases Shape.mem_outgoing_addParameter member with old | ⟨u, default, within⟩
    · exact .inl old
    · rw [default]
      exact .inr (List.mem_cons_of_mem id within)
  | addConstant constant => exact addConstant_keeps hash g constant
  | modify id change =>
    refine modifyNode_touch_keeps hash g _ (g.resolve id) change
      fun node found other member => .inr ?_
    rw [named, node?, found]
    exact List.mem_cons_of_mem id member
  | findUnion member hint => exact .of_quiet (findUnion_quiet g member hint)
  | changeFindings change => exact .of_quiet ⟨⟨rfl, rfl⟩, rfl⟩
  | digest id => exact (digest_keeps hash g id).mono (List.nil_subset _)
  | forgetDigests => exact ⟨fun _ => le_rfl, id, fun _ _ => .of_empty rfl, fun _ _ closed => closed⟩
  | consolidate => exact consolidate_keeps hash g
  | prune => exact .of_quiet (prune_quiet g)

def runAll (hash : Hash) : Graph → List Operation → Graph
  | g, [] => g
  | g, op :: rest => runAll hash (op.run hash g) rest

/-- Every operation names only nodes that exist by then. -/
def Within (hash : Hash) : Graph → List Operation → Prop
  | _, [] => True
  | g, op :: rest => (∀ id ∈ op.named g, id < g.nodes.size) ∧ Within hash (op.run hash g) rest

instance decidableWithin (hash : Hash) : (g : Graph) → (ops : List Operation) →
    Decidable (Within hash g ops)
  | _, [] => .isTrue trivial
  | g, op :: rest =>
    have := decidableWithin hash (op.run hash g) rest
    inferInstanceAs (Decidable ((∀ id ∈ op.named g, id < g.nodes.size) ∧ _))

theorem runAll_sound (hash : Hash) {g : Graph} (ops : List Operation) (sound : g.Sound)
    (cache : CacheSound hash g) :
    (runAll hash g ops).Sound ∧ CacheSound hash (runAll hash g ops) := by
  induction ops generalizing g with
  | nil => exact ⟨sound, cache⟩
  | cons op rest ih =>
    have keeps := run_keeps hash g op
    exact ih (keeps.sound sound) (keeps.cache sound cache)

theorem runAll_closed (hash : Hash) {g : Graph} (ops : List Operation) (sound : g.Sound)
    (closed : g.Closed) (within : Within hash g ops) : (runAll hash g ops).Closed := by
  induction ops generalizing g with
  | nil => exact closed
  | cons op rest ih =>
    have keeps := run_keeps hash g op
    exact ih (keeps.sound sound) (keeps.closed sound within.1 closed) within.2

theorem empty_sound : Graph.empty.Sound := .empty 0

theorem empty_closed : Graph.empty.Closed := by
  intro id node found
  cases found

end Operation

open Operation

/-- What a consolidation of `g` has to bring about. -/
structure Settles (hash : Hash) (g : Graph) : Prop where
  /-- Passes come to an end, and the result is what the last one leaves. -/
  passes : ∃ last, Passes hash g (g.consolidate hash).1 last ∧
    (g.consolidate hash).2 = last.recordEdges
  distinct : ∀ a b, (g.consolidate hash).2.isLive a = true →
    (g.consolidate hash).2.isLive b = true →
    ((g.consolidate hash).2.digest hash a).1 = ((g.consolidate hash).2.digest hash b).1 → a = b
  canonical : ∀ id node, (g.consolidate hash).2.isLive id = true →
    (g.consolidate hash).2.nodes[id]? = some node →
      ∀ other ∈ node.shape.outgoing, (g.consolidate hash).2.isLive other = true
  count : (g.consolidate hash).2.liveCount + (g.consolidate hash).1 = g.liveCount
  again : (g.consolidate hash).2.consolidate hash = (0, (g.consolidate hash).2)

/-- Whatever was done before, a consolidation settles the graph, for every hash function. -/
theorem consolidate_settles (hash : Hash) (ops : List Operation) (within : Within hash .empty ops) :
    Settles hash (runAll hash .empty ops) := by
  obtain ⟨sound, -⟩ := runAll_sound hash ops empty_sound (.of_empty rfl)
  have closed := runAll_closed hash ops empty_sound empty_closed within
  generalize runAll hash .empty ops = g at sound closed
  obtain ⟨before, shrinks, none, passes, result⟩ := consolidate_last hash sound
  have count := (consolidate_shrinks hash sound).live
  have again := mergePass_recordEdges shrinks.sound (shrinks.closed closed) none
  have same := recordEdges_same (compared hash before)
  have cache : CacheSound hash (compared hash before).recordEdges :=
    (compared_cacheSound hash before).of_same same (recordEdges_quiet _).cache
  refine ⟨⟨_, passes, result⟩, ?_, ?_, count, ?_⟩
  · rw [result]
    intro a b liveA liveB equal
    rw [(cache.digest_spec a).1, (cache.digest_spec b).1, resolve_of_isLive liveA,
      resolve_of_isLive liveB, same.plainDigest_eq, same.plainDigest_eq] at equal
    rw [same.isLive_eq] at liveA liveB
    exact compared_distinct none liveA liveB equal
  · rw [result]
    have prepared := prepared_canonical shrinks.sound (shrinks.closed closed)
    exact ((compared_same hash before).trans same).canonical prepared
  · rw [result, consolidate_of_mergePass again, recordEdges_recordEdges]

/-- A required property that refers to a node. -/
def Property.link (name : String) (target : NodeId) : Property :=
  ⟨name, .ofNode target, false, false, none, none⟩

/-- A node that refers to itself, and two that refer to each other; a digest is asked for before the
last reference is there. -/
def Operation.cycles : List Operation :=
  [.register { name := "Loop", shape := .record [] [] },
    .register { name := "There", shape := .record [] [] },
    .register { name := "Back", shape := .record [] [] },
    .addProperty 0 (.link "next" 0), .addProperty 1 (.link "next" 2), .digest 1,
    .addProperty 2 (.link "next" 1)]

theorem consolidate_settles_cycles : Within Sha256.hex .empty cycles ∧
    Settles Sha256.hex (runAll Sha256.hex .empty cycles) :=
  ⟨by decide, consolidate_settles Sha256.hex cycles (by decide)⟩

/-- A digest does not depend on what was asked before: it is the one taken from scratch. -/
theorem digest_runAll (hash : Hash) (ops : List Operation) (id : NodeId) (digest : String) :
    ((runAll hash .empty ops).digest hash id).1 = digest ↔
      TakenBelow hash (runAll hash .empty ops) [] ((runAll hash .empty ops).resolve id) digest := by
  obtain ⟨-, cache⟩ := runAll_sound hash ops empty_sound (.of_empty rfl)
  rw [(cache.digest_spec id).1, takenBelow_iff_eq_plainDigest]
  exact eq_comm

end TypeLoom.Graph
