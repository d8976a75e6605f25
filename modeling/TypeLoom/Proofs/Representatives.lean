import TypeLoom.Proofs.Reachability
import TypeLoom.Proofs.Survivors

/-! What stands for a node after a consolidation is seen wherever the node was. In every pass the
node of the highest score stands for all of its digest, the first one of them if there are several.
It takes over what makes the others part of the output, so scores only rise from pass to pass, and a
pruning that follows starts from it. -/
namespace TypeLoom.Graph

section pass
variable (hash : Hash) {g : Graph} (sound : g.Sound)
include sound

theorem mergePass_leads_plain {id : NodeId} (live : g.isLive id = true) :
    Leads g (fun other => g.isLive other = true ∧
        plainDigest hash g.prepared other = plainDigest hash g.prepared id)
      ((g.mergePass hash).2.resolve id) := by
  have survives := mergePass_survives hash sound live
  -- Whichever node of the digest is compared, there is a bucket that holds it together with `id`.
  have compare : ∀ other, g.isLive other = true ∧
      plainDigest hash g.prepared other = plainDigest hash g.prepared id →
      ∃ ids : List NodeId, other ∈ ids ∧ Leads g (· ∈ ids) ((g.mergePass hash).2.resolve id) := by
    rintro other ⟨alive, equal⟩
    rw [← prepared_isLive] at alive live
    obtain ⟨ids, bucket, inOther, inId⟩ := mem_groups_together alive live equal
    obtain ⟨survivor, leads, stands⟩ := mergePass_bucket hash sound bucket (List.ne_nil_of_mem inId)
    exact ⟨ids, inOther, (stands id inId).1.symm ▸ leads⟩
  refine ⟨⟨survives.isLive, survives.digest.symm⟩, fun other alike => ?_,
    fun other alike equal => ?_⟩
  · obtain ⟨ids, inside, leads⟩ := compare other alike
    exact leads.highest other inside
  · obtain ⟨ids, inside, leads⟩ := compare other alike
    exact leads.first other inside equal

/-- Of the nodes that have the digest of a node, the one of the highest score comes to stand for it,
and the first of these. -/
theorem mergePass_leads {id : NodeId} (live : g.isLive id = true) :
    Leads g (fun other => g.isLive other = true ∧
        (g.prepared.digest hash other).1 = (g.prepared.digest hash id).1)
      ((g.mergePass hash).2.resolve id) := by
  have digest : ∀ {other}, g.isLive other = true →
      (g.prepared.digest hash other).1 = plainDigest hash g.prepared other := by
    intro other alive
    rw [((prepared_cacheSound hash g).digest_spec other).1]
    rw [← prepared_isLive] at alive
    rw [resolve_of_isLive alive]
  have leads := mergePass_leads_plain hash sound live
  have alike : ∀ other, (g.isLive other = true ∧
      plainDigest hash g.prepared other = plainDigest hash g.prepared id) ↔
      (g.isLive other = true ∧
        (g.prepared.digest hash other).1 = (g.prepared.digest hash id).1) :=
    fun other => and_congr_right fun alive => by rw [digest alive, digest live]
  exact ⟨(alike _).mp leads.mem, fun other same => leads.highest other ((alike other).mpr same),
    fun other same => leads.first other ((alike other).mpr same)⟩

end pass

theorem Node.score_le {a b : Node} (under : a.flags.Under b.flags) (level : b.level = a.level) :
    a.score ≤ b.score := by
  have weight : ∀ {x y : Bool}, (x = true → y = true) →
      (if x = true then 100 else 0 : Int) ≤ if y = true then 100 else 0 := by decide
  have rendered := weight under.rendered
  have isPublic := weight under.isPublic
  rw [score, score, level]
  omega

theorem level_lasting : Lasting Node.level := ⟨fun _ _ => rfl, fun _ _ => rfl⟩

section passes
variable {hash : Hash} {g g' : Graph} {count : Nat}

theorem scoreOf_of_node {id : NodeId} {node : Node} (found : g.nodes[id]? = some node) :
    g.scoreOf id = node.score := by
  rw [scoreOf, found]
  rfl

theorem scoreOf_le_of_inherits {id : NodeId} (inside : id < g.nodes.size)
    (inherits : Inherits g id g' id)
    (levels : g'.nodes.map Node.level = g.nodes.map Node.level) : g.scoreOf id ≤ g'.scoreOf id := by
  obtain ⟨node, found⟩ : ∃ node, g.nodes[id]? = some node := ⟨_, Array.getElem?_eq_getElem inside⟩
  obtain ⟨kept, isKept, under⟩ := inherits.node found
  have level := congrArg (fun levels => levels[id]?) levels
  simp only [Array.getElem?_map, found, isKept, Option.map_some, Option.some.injEq] at level
  rw [scoreOf_of_node found, scoreOf_of_node isKept]
  exact Node.score_le under level

theorem mergePass_scoreOf_le (sound : g.Sound) {id : NodeId} (live : g.isLive id = true) :
    g.scoreOf id ≤ (g.mergePass hash).2.scoreOf ((g.mergePass hash).2.resolve id) := by
  have leads := mergePass_leads hash sound live
  have pass := mergePass_shrinks hash sound
  have lt := ((isLive_iff g id).mp live).1
  have last : (g.mergePass hash).2.isLive ((g.mergePass hash).2.resolve id) = true :=
    pass.sound.isLive_resolve (pass.size.symm ▸ lt)
  have inherits := (mergePass_survives hash sound leads.mem.1).inherits
  rw [resolve_of_isLive last] at inherits
  calc g.scoreOf id
      ≤ g.scoreOf ((g.mergePass hash).2.resolve id) := leads.highest id ⟨live, rfl⟩
    _ ≤ (g.mergePass hash).2.scoreOf ((g.mergePass hash).2.resolve id) :=
        scoreOf_le_of_inherits ((isLive_iff g _).mp leads.mem.1).1 inherits
          (mergePass_map level_lasting hash g)

theorem Passes.scoreOf_le (passes : Passes hash g count g') (sound : g.Sound) {id : NodeId}
    (live : g.isLive id = true) : g.scoreOf id ≤ g'.scoreOf (g'.resolve id) := by
  induction passes generalizing id with
  | last none => exact mergePass_scoreOf_le sound live
  | @more g g' _ some rest ih =>
    have pass := mergePass_shrinks hash sound
    have lt := ((isLive_iff g id).mp live).1
    have next := ih pass.sound (pass.sound.isLive_resolve (pass.size.symm ▸ lt))
    rw [(rest.extends pass.sound).resolve_resolve (rest.sound pass.sound)] at next
    exact Int.le_trans (mergePass_scoreOf_le sound live) next

theorem recordEdges_scoreOf (g : Graph) (id : NodeId) : g.recordEdges.scoreOf id = g.scoreOf id :=
  rfl

theorem consolidate_scoreOf_le (sound : g.Sound) {id : NodeId} (live : g.isLive id = true) :
    g.scoreOf id ≤ (g.consolidate hash).2.scoreOf ((g.consolidate hash).2.resolve id) := by
  obtain ⟨before, -, -, passes, result⟩ := consolidate_last hash sound
  rw [result, recordEdges_resolve, recordEdges_scoreOf]
  exact passes.scoreOf_le sound live

theorem Begins.sound {h : Graph} (begins : Begins hash g h) (sound : g.Sound) : h.Sound := by
  induction begins with
  | here => exact sound
  | later some rest ih => exact ih (mergePass_shrinks hash sound).sound

end passes

theorem prune_root {g : Graph} {id : NodeId} {node : Node} (live : g.isLive id = true)
    (found : g.nodes[id]? = some node) (root : node.isRoot = true) :
    ∃ ids, g.prune.2.retained = some ids ∧ id ∈ ids := by
  refine ⟨_, prune_retained g, search_reached _ _ _ ((mem_roots _ id).mpr ⟨?_, ?_⟩)⟩
  · rw [(recordEdges_same g).isLive_eq]
    exact live
  · show (g.nodes[id]?).any Node.isRoot = true
    rw [found]
    exact root

theorem consolidate_root (hash : Hash) {g : Graph} (sound : g.Sound) {id : NodeId} {node : Node}
    (live : g.isLive id = true) (found : g.nodes[id]? = some node) (root : node.isRoot = true) :
    ∃ kept, (g.consolidate hash).2.nodes[(g.consolidate hash).2.resolve id]? = some kept ∧
      kept.isRoot = true := by
  obtain ⟨kept, isKept, under⟩ := (consolidate_inherits sound live).node found
  refine ⟨kept, isKept, ?_⟩
  rw [Node.isRoot, Bool.or_eq_true] at root ⊢
  exact root.imp under.isPublic under.rendered

/-- In `g'` the node `b` stands for the node `a` of `g` and is seen wherever that was. -/
structure StandsFor (g : Graph) (a : NodeId) (g' : Graph) (b : NodeId) : Prop where
  isLive : g'.isLive b = true
  under : ∀ node, g.nodes[a]? = some node →
    ∃ kept, g'.nodes[b]? = some kept ∧ node.flags.Under kept.flags ∧ node.score ≤ kept.score
  root : ∀ node, g.nodes[a]? = some node →
    node.flags.isPublic = true ∨ node.flags.rendered = true →
    b ∈ g'.roots ∧ ∃ ids, g'.prune.2.retained = some ids ∧ b ∈ ids

theorem consolidate_standsFor (hash : Hash) {g : Graph} (sound : g.Sound) {id : NodeId}
    (live : g.isLive id = true) :
    StandsFor g id (g.consolidate hash).2 ((g.consolidate hash).2.resolve id) := by
  have shrinks := consolidate_shrinks hash sound
  have lt := ((isLive_iff g id).mp live).1
  have alive : (g.consolidate hash).2.isLive ((g.consolidate hash).2.resolve id) = true :=
    shrinks.sound.isLive_resolve (shrinks.size.symm ▸ lt)
  refine ⟨alive, fun node found => ?_, fun node found shown => ?_⟩
  · obtain ⟨kept, isKept, under⟩ := (@consolidate_inherits hash g sound id live).node found
    have score := @consolidate_scoreOf_le hash g sound id live
    rw [scoreOf_of_node found, scoreOf_of_node isKept] at score
    exact ⟨kept, isKept, under, score⟩
  · have root : node.isRoot = true := by rwa [Node.isRoot, Bool.or_eq_true]
    obtain ⟨kept, isKept, keptRoot⟩ := consolidate_root hash sound live found root
    refine ⟨(mem_roots _ _).mpr ⟨alive, ?_⟩, prune_root alive isKept keptRoot⟩
    rw [isKept]
    exact keptRoot

open Operation in
/-- Whatever was done before, after a consolidation every node that was live is represented by one
that is seen wherever it was, and is without a name of its own only if all nodes that it represents
were; and in every pass the first node of the highest score was chosen among those of equal
digest. -/
theorem consolidate_represents (hash : Hash) (ops : List Operation) :
    (∀ id, (runAll hash .empty ops).isLive id = true →
      StandsFor (runAll hash .empty ops) id ((runAll hash .empty ops).consolidate hash).2
        (((runAll hash .empty ops).consolidate hash).2.resolve id)) ∧
    ∀ h, Begins hash (runAll hash .empty ops) h → ∀ id, h.isLive id = true →
      Leads h (fun other => h.isLive other = true ∧
          (h.prepared.digest hash other).1 = (h.prepared.digest hash id).1)
        ((h.mergePass hash).2.resolve id) := by
  have sound := (runAll_sound hash ops empty_sound (.of_empty rfl)).1
  exact ⟨fun id live => consolidate_standsFor hash sound live,
    fun h begins id live => mergePass_leads hash (begins.sound sound) live⟩

end TypeLoom.Graph
