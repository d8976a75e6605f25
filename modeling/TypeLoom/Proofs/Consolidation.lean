import TypeLoom.Proofs.Merging

/-! Consolidation repeats passes until one merges nothing. Every other pass leaves fewer live nodes,
so there is a last one. After it live nodes have different digests and refer to live nodes only, and
another consolidation finds nothing to do. -/
namespace TypeLoom.Graph

/-- Every reference is to a node of the graph. -/
def Closed (g : Graph) : Prop :=
  ∀ ⦃id : NodeId⦄ ⦃node : Node⦄, g.nodes[id]? = some node →
    ∀ other ∈ node.shape.outgoing, other < g.nodes.size

/-- Live nodes refer to live nodes. -/
def Canonical (g : Graph) : Prop :=
  ∀ ⦃id : NodeId⦄ ⦃node : Node⦄, g.isLive id = true → g.nodes[id]? = some node →
    ∀ other ∈ node.shape.outgoing, g.isLive other = true

theorem Closed.of_shapes {g g' : Graph} (closed : g.Closed)
    (shapes : g'.nodes.map Node.shape = g.nodes.map Node.shape) : g'.Closed := by
  intro id node found other member
  have size : g'.nodes.size = g.nodes.size := by simpa using congrArg Array.size shapes
  have shape : (g'.nodes[id]?).map Node.shape = (g.nodes[id]?).map Node.shape := by
    rw [← Array.getElem?_map, ← Array.getElem?_map, shapes]
  rw [found, Option.map_some] at shape
  obtain ⟨before, old, same⟩ := Option.map_eq_some_iff.mp shape.symm
  rw [size]
  exact closed old other (same ▸ member)

namespace SameShapes
variable {g g' : Graph}

theorem sound (same : SameShapes g g') (sound : g.Sound) : g'.Sound := by
  rwa [Sound, same.redirects, same.size_eq]

theorem isLive_eq (same : SameShapes g g') (id : NodeId) : g'.isLive id = g.isLive id := by
  rw [isLive, isLive, same.redirects, same.size_eq]

theorem canonical (same : SameShapes g g') (canonical : g.Canonical) : g'.Canonical := by
  intro id node live found other member
  have shape := same.shape?_eq id
  rw [found, Option.map_some] at shape
  obtain ⟨before, old, kept⟩ := Option.map_eq_some_iff.mp shape.symm
  rw [same.isLive_eq] at live ⊢
  exact canonical live old other (kept ▸ member)

theorem liveCount_eq (same : SameShapes g g') : g'.liveCount = g.liveCount := by
  rw [liveCount, liveCount, same.redirects, same.size_eq]

end SameShapes

theorem forgetDigests_same (g : Graph) : SameShapes g g.forgetDigests := ⟨rfl, rfl⟩

theorem recordEdges_same (g : Graph) : SameShapes g g.recordEdges := ⟨rfl, rfl⟩

@[simp] theorem canonicalize_size (g : Graph) : g.canonicalize.nodes.size = g.nodes.size := by
  simp [canonicalize]

theorem canonicalize_node (g : Graph) (id : NodeId) : g.canonicalize.nodes[id]? =
    (g.nodes[id]?).map fun node => if g.redirects.contains id then node
      else { node with shape := node.shape.mapNodes g.resolve } := by
  rw [canonicalize, Array.getElem?_mapIdx]

theorem canonicalize_sound {g : Graph} (sound : g.Sound) : g.canonicalize.Sound := by
  rw [Sound, canonicalize_size]
  exact sound

theorem canonicalize_isLive (g : Graph) (id : NodeId) : g.canonicalize.isLive id = g.isLive id := by
  rw [isLive, isLive, canonicalize_size]
  rfl

theorem canonicalize_closed {g : Graph} (sound : g.Sound) (closed : g.Closed) :
    g.canonicalize.Closed := by
  intro id node found other member
  rw [canonicalize_size]
  rw [canonicalize_node] at found
  obtain ⟨before, old, rfl⟩ := Option.map_eq_some_iff.mp found
  split_ifs at member with retired
  · exact closed old other member
  · rw [Shape.outgoing_mapNodes] at member
    obtain ⟨target, inside, rfl⟩ := List.mem_map.mp member
    exact sound.resolve_lt (closed old target inside)

theorem canonicalize_canonical {g : Graph} (sound : g.Sound) (closed : g.Closed) :
    g.canonicalize.Canonical := by
  intro id node live found other member
  rw [canonicalize_isLive, isLive_iff, ← Table.contains_eq_false_iff] at live
  rw [canonicalize_node] at found
  obtain ⟨before, old, rfl⟩ := Option.map_eq_some_iff.mp found
  rw [live.2, if_neg Bool.false_ne_true, Shape.outgoing_mapNodes] at member
  obtain ⟨target, inside, rfl⟩ := List.mem_map.mp member
  rw [canonicalize_isLive]
  exact sound.isLive_resolve (closed old target inside)

theorem canonicalize_of_canonical {g : Graph} (canonical : g.Canonical) : g.canonicalize = g := by
  have nodes : g.canonicalize.nodes = g.nodes := by
    apply Array.ext_getElem?
    intro id
    rw [canonicalize_node]
    cases found : g.nodes[id]? with
    | none => rfl
    | some node =>
      rw [Option.map_some]
      split_ifs with retired
      · rfl
      · have live : g.isLive id = true := (g.isLive_iff id).mpr
          ⟨(Array.getElem?_eq_some_iff.mp found).1,
            (g.redirects.contains_eq_false_iff id).mp (Bool.eq_false_iff.mpr retired)⟩
        have fixed : node.shape.mapNodes g.resolve = node.shape :=
          Shape.mapNodes_of_fixed _ _ fun other member =>
            resolve_of_isLive (canonical live found other member)
        rw [fixed]
  exact congrArg (fun nodes => { g with nodes := nodes }) nodes

/-- The graph whose nodes a pass compares. -/
def prepared (g : Graph) : Graph := g.forgetDigests.canonicalize

def compared (hash : Hash) (g : Graph) : Graph := (g.prepared.digests hash g.prepared.liveIds).2

/-- The live nodes parted by digest. -/
def groups (hash : Hash) (g : Graph) : List (List NodeId) :=
  buckets (g.prepared.digests hash g.prepared.liveIds).1

theorem mergePass_eq (hash : Hash) (g : Graph) : g.mergePass hash =
    ((mergeBuckets (compared hash g) (groups hash g)).1,
      if (mergeBuckets (compared hash g) (groups hash g)).1 = 0
      then (mergeBuckets (compared hash g) (groups hash g)).2
      else (mergeBuckets (compared hash g) (groups hash g)).2.canonicalize) := rfl

section passes
variable (hash : Hash) {g : Graph}

theorem prepared_sound {g : Graph} (sound : g.Sound) : g.prepared.Sound :=
  canonicalize_sound ((forgetDigests_same g).sound sound)

theorem prepared_canonical {g : Graph} (sound : g.Sound) (closed : g.Closed) :
    g.prepared.Canonical :=
  canonicalize_canonical ((forgetDigests_same g).sound sound)
    (closed.of_shapes (forgetDigests_same g).shapes)

theorem prepared_cacheSound (g : Graph) : CacheSound hash g.prepared := .of_empty rfl

theorem compared_frame (g : Graph) :
    ∃ cache, compared hash g = { g.prepared with cache := cache } :=
  digests_frame hash g.prepared g.prepared.liveIds

theorem compared_same (g : Graph) : SameShapes g.prepared (compared hash g) := by
  obtain ⟨cache, frame⟩ := compared_frame hash g
  rw [frame]
  exact ⟨rfl, rfl⟩

theorem compared_cacheSound (g : Graph) : CacheSound hash (compared hash g) :=
  ((prepared_cacheSound hash g).digests_spec _).2

theorem groups_perm (g : Graph) : (groups hash g).flatten.Perm g.prepared.liveIds := by
  have spec := ((prepared_cacheSound hash g).digests_spec g.prepared.liveIds).1
  have perm := flatten_buckets (g.prepared.digests hash g.prepared.liveIds).1
  rw [spec, List.map_map] at perm
  rw [groups, spec]
  simpa [Function.comp_def] using perm

theorem mergeBuckets_groups (sound : g.Sound) :
    Retires (compared hash g) (groups hash g).flatten (g.mergePass hash).1
      (mergeBuckets (compared hash g) (groups hash g)).2 := by
  have perm := groups_perm hash g
  have live : ∀ id ∈ (groups hash g).flatten, (compared hash g).isLive id = true := by
    intro id member
    rw [(compared_same hash g).isLive_eq]
    exact (mem_liveIds g.prepared id).mp (perm.mem_iff.mp member)
  have nodup := perm.nodup_iff.mpr (liveIds_nodup g.prepared)
  rw [mergePass_eq]
  exact mergeBuckets_retires ((compared_same hash g).sound (prepared_sound sound)) nodup live

/-- Redirects stay sound, and there are `count` live nodes less. -/
structure Shrinks (g : Graph) (count : Nat) (g' : Graph) : Prop where
  sound : g'.Sound
  size : g'.nodes.size = g.nodes.size
  live : g'.liveCount + count = g.liveCount
  closed : g.Closed → g'.Closed

theorem Shrinks.trans {g g' g'' : Graph} {count others total : Nat} (first : Shrinks g count g')
    (second : Shrinks g' others g'') (sum : count + others = total) : Shrinks g total g'' where
  sound := second.sound
  size := second.size.trans first.size
  live := by have := first.live; have := second.live; omega
  closed := second.closed ∘ first.closed

theorem SameShapes.shrinks {g g' : Graph} (same : SameShapes g g') (sound : g.Sound) :
    Shrinks g 0 g' where
  sound := same.sound sound
  size := same.size_eq
  live := same.liveCount_eq
  closed closed := closed.of_shapes same.shapes

theorem canonicalize_shrinks {g : Graph} (sound : g.Sound) : Shrinks g 0 g.canonicalize where
  sound := canonicalize_sound sound
  size := canonicalize_size g
  live := by
    rw [liveCount, liveCount, canonicalize_size]
    rfl
  closed := canonicalize_closed sound

theorem compared_shrinks (sound : g.Sound) : Shrinks g 0 (compared hash g) := by
  have forgotten := (forgetDigests_same g).shrinks sound
  have canonical : Shrinks g.forgetDigests 0 g.prepared := canonicalize_shrinks forgotten.sound
  exact (forgotten.trans canonical rfl).trans ((compared_same hash g).shrinks canonical.sound) rfl

theorem mergePass_shrinks (sound : g.Sound) :
    Shrinks g (g.mergePass hash).1 (g.mergePass hash).2 := by
  have retires := mergeBuckets_groups hash sound
  have merged :
      Shrinks g (g.mergePass hash).1 (mergeBuckets (compared hash g) (groups hash g)).2 := by
    have first := compared_shrinks hash sound
    have second : Shrinks (compared hash g) (g.mergePass hash).1
        (mergeBuckets (compared hash g) (groups hash g)).2 :=
      ⟨retires.sound, retires.nodes_size, retires.liveCount, fun closed =>
        closed.of_shapes retires.shapes⟩
    exact first.trans second (Nat.zero_add _)
  rw [mergePass_eq] at merged ⊢
  dsimp only at merged ⊢
  split_ifs with none
  · exact merged
  · exact merged.trans (canonicalize_shrinks merged.sound) (Nat.add_zero _)

end passes

/-- A run of passes up to the first that merges nothing, with the number of nodes merged. -/
inductive Passes (hash : Hash) : Graph → Nat → Graph → Prop
  | last {g : Graph} (none : (g.mergePass hash).1 = 0) : Passes hash g 0 (g.mergePass hash).2
  | more {g g' : Graph} {count : Nat} (some : (g.mergePass hash).1 ≠ 0)
      (rest : Passes hash (g.mergePass hash).2 count g') :
      Passes hash g ((g.mergePass hash).1 + count) g'

/-- There is a last pass, and `steps` are enough to come to it if there are fewer live nodes. -/
theorem passes_mergePasses (hash : Hash) {g : Graph} (sound : g.Sound) {steps : Nat}
    (enough : g.liveCount < steps) :
    Passes hash g (mergePasses hash steps g).1 (mergePasses hash steps g).2 := by
  induction steps generalizing g with
  | zero => omega
  | succ steps ih =>
    have pass := mergePass_shrinks hash sound
    by_cases none : (g.mergePass hash).1 = 0
    · simp only [mergePasses, none, if_true]
      exact .last none
    · have fewer := pass.live
      simp only [mergePasses, none, if_false]
      exact .more none (ih pass.sound (by omega))

theorem Passes.last_pass {hash : Hash} {g g' : Graph} {count : Nat}
    (passes : Passes hash g count g')
    (sound : g.Sound) : ∃ before : Graph, Shrinks g count before ∧ (before.mergePass hash).1 = 0 ∧
      g' = (before.mergePass hash).2 := by
  induction passes with
  | @last g none => exact ⟨g, ⟨sound, rfl, rfl, id⟩, none, rfl⟩
  | more _ _ ih =>
    have pass := mergePass_shrinks hash sound
    obtain ⟨before, shrinks, none, same⟩ := ih pass.sound
    exact ⟨before, pass.trans shrinks rfl, none, same⟩

theorem mem_groups_together {hash : Hash} {g : Graph} {a b : NodeId}
    (liveA : g.prepared.isLive a = true) (liveB : g.prepared.isLive b = true)
    (equal : plainDigest hash g.prepared a = plainDigest hash g.prepared b) :
    ∃ ids ∈ groups hash g, a ∈ ids ∧ b ∈ ids := by
  have spec := ((prepared_cacheSound hash g).digests_spec g.prepared.liveIds).1
  have mem : ∀ {id}, g.prepared.isLive id = true → (id, plainDigest hash g.prepared id) ∈
      (g.prepared.digests hash g.prepared.liveIds).1 := by
    intro id live
    rw [spec]
    refine List.mem_map.mpr ⟨id, (mem_liveIds g.prepared id).mpr live, ?_⟩
    rw [resolve_of_isLive live]
  exact mem_buckets_together (mem liveA) (equal ▸ mem liveB)

section last
variable {hash : Hash} {g : Graph} (none : (g.mergePass hash).1 = 0)
include none

theorem mergePass_last : (g.mergePass hash).2 = compared hash g := by
  rw [mergePass_eq] at none ⊢
  dsimp only at none ⊢
  rw [if_pos none]
  exact (mergeBuckets_of_count_eq_zero none).1

theorem compared_distinct {a b : NodeId} (liveA : (compared hash g).isLive a = true)
    (liveB : (compared hash g).isLive b = true)
    (equal : plainDigest hash (compared hash g) a = plainDigest hash (compared hash g) b) :
    a = b := by
  have same := compared_same hash g
  rw [same.isLive_eq] at liveA liveB
  rw [same.plainDigest_eq, same.plainDigest_eq] at equal
  obtain ⟨ids, bucket, inA, inB⟩ := mem_groups_together liveA liveB equal
  rw [mergePass_eq] at none
  have short := (mergeBuckets_of_count_eq_zero none).2 ids bucket
  obtain ⟨only, rfl⟩ : ∃ only, ids = [only] := by
    rw [← List.length_eq_one_iff]
    have pos := List.length_pos_of_mem inA
    omega
  rw [List.mem_singleton.mp inA, List.mem_singleton.mp inB]

end last

theorem walkBelow_congr (hash : Hash) {g g' : Graph} (nodes : g'.nodes = g.nodes)
    (redirects : g'.redirects = g.redirects) (level : Nat) :
    ∀ stack known id, walkBelow hash g' level stack known id =
      walkBelow hash g level stack known id := by
  induction level with
  | zero => intro stack known id; rfl
  | succ level ih =>
    intro stack known id
    have resolve : g'.resolve id = g.resolve id := by rw [Graph.resolve, Graph.resolve, redirects]
    have below : walkBelow hash g' level (g.resolve id :: stack) =
        walkBelow hash g level (g.resolve id :: stack) :=
      funext fun known => funext fun other => ih _ known other
    simp only [walkBelow, resolve, nodes, below]

theorem digest_withEdges (hash : Hash) (g : Graph) (edges : Table NodeId (List NodeId))
    (id : NodeId) : ({ g with edges := edges }).digest hash id =
      ((g.digest hash id).1, { (g.digest hash id).2 with edges := edges }) := by
  have refreshed : ({ g with edges := edges } : Graph).refreshCache =
      { g.refreshCache with edges := edges } := by
    simp only [refreshCache]
    split_ifs <;> rfl
  have walk := @walkBelow_congr hash g.refreshCache { g.refreshCache with edges := edges } rfl rfl
  have resolve : ({ g.refreshCache with edges := edges } : Graph).resolve id =
      g.refreshCache.resolve id := rfl
  simp only [digest, refreshed, walk, resolve]
  split <;> rfl

theorem digests_withEdges (hash : Hash) (g : Graph) (edges : Table NodeId (List NodeId))
    (ids : List NodeId) : digests hash { g with edges := edges } ids =
      ((digests hash g ids).1, { (digests hash g ids).2 with edges := edges }) := by
  induction ids generalizing g with
  | nil => rfl
  | cons id rest ih => simp only [digests, digest_withEdges, ih]

theorem canonicalize_withEdges (g : Graph) (edges : Table NodeId (List NodeId)) :
    ({ g with edges := edges }).canonicalize = { g.canonicalize with edges := edges } := rfl

theorem liveIds_withEdges (g : Graph) (edges : Table NodeId (List NodeId)) :
    ({ g with edges := edges }).liveIds = g.liveIds := rfl

theorem prepared_withEdges (hash : Hash) {g : Graph} (sound : g.Sound) (closed : g.Closed)
    (edges : Table NodeId (List NodeId)) :
    ({ compared hash g with edges := edges }).prepared = { g.prepared with edges := edges } := by
  obtain ⟨cache, frame⟩ := compared_frame hash g
  have forgotten : ({ compared hash g with edges := edges }).forgetDigests =
      { g.prepared with edges := edges } := by
    rw [frame]
    rfl
  rw [prepared, forgotten, canonicalize_withEdges,
    canonicalize_of_canonical (prepared_canonical sound closed)]

/-- Another pass over the result of the last one compares the same digests. -/
theorem mergePass_recordEdges {hash : Hash} {g : Graph} (sound : g.Sound) (closed : g.Closed)
    (none : (g.mergePass hash).1 = 0) :
    (compared hash g).recordEdges.mergePass hash = (0, (compared hash g).recordEdges) := by
  obtain ⟨edges, recorded⟩ : ∃ edges, (compared hash g).recordEdges =
      { compared hash g with edges := edges } := ⟨_, rfl⟩
  have again := prepared_withEdges hash sound closed edges
  have digests := digests_withEdges hash g.prepared edges g.prepared.liveIds
  have sameGraph : compared hash { compared hash g with edges := edges } =
      { compared hash g with edges := edges } := by
    rw [compared, again, liveIds_withEdges, digests, compared]
  have sameGroups : groups hash { compared hash g with edges := edges } = groups hash g := by
    rw [groups, again, liveIds_withEdges, digests, groups]
  have count : (({ compared hash g with edges := edges }).mergePass hash).1 = 0 := by
    rw [mergePass_eq] at none ⊢
    rw [sameGroups, sameGraph, mergeBuckets_count_congr _ (compared hash g)]
    exact none
  rw [recorded]
  exact Prod.ext count ((mergePass_last count).trans sameGraph)

theorem recordEdges_recordEdges (g : Graph) : g.recordEdges.recordEdges = g.recordEdges := rfl

theorem consolidate_of_mergePass {hash : Hash} {g : Graph} (done : g.mergePass hash = (0, g)) :
    g.consolidate hash = (0, g.recordEdges) := by
  rw [consolidate, mergePasses, done]
  rfl

/-- What consolidation comes to: a run of passes with a last one that finds nothing to merge. -/
theorem consolidate_last (hash : Hash) {g : Graph} (sound : g.Sound) :
    ∃ before : Graph, Shrinks g (g.consolidate hash).1 before ∧ (before.mergePass hash).1 = 0 ∧
      Passes hash g (g.consolidate hash).1 (compared hash before) ∧
      (g.consolidate hash).2 = (compared hash before).recordEdges := by
  have passes := passes_mergePasses hash sound (Nat.lt_add_one g.liveCount)
  have whole : g.consolidate hash = ((mergePasses hash (g.liveCount + 1) g).1,
      (mergePasses hash (g.liveCount + 1) g).2.recordEdges) := by rw [consolidate]
  obtain ⟨before, shrinks, none, same⟩ := passes.last_pass sound
  rw [mergePass_last none] at same
  rw [same] at passes whole
  rw [whole]
  dsimp only
  exact ⟨before, shrinks, none, passes, rfl⟩

theorem consolidate_shrinks (hash : Hash) {g : Graph} (sound : g.Sound) :
    Shrinks g (g.consolidate hash).1 (g.consolidate hash).2 := by
  obtain ⟨before, shrinks, -, -, result⟩ := consolidate_last hash sound
  have last := compared_shrinks hash shrinks.sound
  have recorded := (recordEdges_same (compared hash before)).shrinks last.sound
  rw [result]
  exact (shrinks.trans last (Nat.add_zero _)).trans recorded (Nat.add_zero _)

/-- What of a node depends neither on its flags nor on which nodes it refers to. -/
structure Lasting {α : Type} (view : Node → α) : Prop where
  flags : ∀ (node : Node) (flags : Flags), view { node with flags := flags } = view node
  references : ∀ (node : Node) (f : NodeId → NodeId),
    view { node with shape := node.shape.mapNodes f } = view node

section lasting
variable {α : Type} {view : Node → α} (lasting : Lasting view)
include lasting

theorem canonicalize_map (g : Graph) : g.canonicalize.nodes.map view = g.nodes.map view := by
  refine Array.ext_getElem? fun id => ?_
  rw [Array.getElem?_map, Array.getElem?_map, canonicalize_node, Option.map_map]
  congr 1
  funext node
  dsimp only [Function.comp_apply]
  split_ifs
  · rfl
  · exact lasting.references node g.resolve

theorem absorb_map (g : Graph) (survivor loser : NodeId) :
    (g.absorb survivor loser).nodes.map view = g.nodes.map view := by
  rw [absorb]
  cases g.nodes[loser]? with
  | none => rfl
  | some lost =>
    dsimp only
    rw [freeName_nodes]
    exact map_modifyNode g survivor fun node => lasting.flags node _

theorem mergeBucket_map (g : Graph) (ids : List NodeId) :
    (g.mergeBucket ids).2.nodes.map view = g.nodes.map view := by
  rw [mergeBucket]
  cases g.byScore ids with
  | nil => rfl
  | cons survivor losers =>
    dsimp only
    induction losers generalizing g with
    | nil => rfl
    | cons loser rest ih => rw [List.foldl_cons, ih, absorb_map lasting]

theorem mergeBuckets_map (g : Graph) (groups : List (List NodeId)) :
    (g.mergeBuckets groups).2.nodes.map view = g.nodes.map view := by
  induction groups generalizing g with
  | nil => rfl
  | cons ids rest ih =>
    rw [mergeBuckets]
    dsimp only
    rw [ih, mergeBucket_map lasting]

theorem mergePass_map (hash : Hash) (g : Graph) :
    (g.mergePass hash).2.nodes.map view = g.nodes.map view := by
  have merged : (mergeBuckets (compared hash g) (groups hash g)).2.nodes.map view =
      g.nodes.map view := by
    obtain ⟨cache, same⟩ := compared_frame hash g
    rw [mergeBuckets_map lasting, same]
    exact canonicalize_map lasting g.forgetDigests
  rw [mergePass_eq]
  dsimp only
  split_ifs
  · exact merged
  · rw [canonicalize_map lasting, merged]

theorem mergePasses_map (hash : Hash) (steps : Nat) (g : Graph) :
    (mergePasses hash steps g).2.nodes.map view = g.nodes.map view := by
  induction steps generalizing g with
  | zero => rfl
  | succ steps ih =>
    rw [mergePasses]
    dsimp only
    split_ifs
    · exact mergePass_map lasting hash g
    · rw [ih, mergePass_map lasting]

theorem consolidate_map (hash : Hash) (g : Graph) :
    (g.consolidate hash).2.nodes.map view = g.nodes.map view := by
  have recorded (g : Graph) : g.recordEdges.nodes = g.nodes := rfl
  rw [consolidate]
  dsimp only
  rw [recorded, mergePasses_map lasting]

end lasting

end TypeLoom.Graph
