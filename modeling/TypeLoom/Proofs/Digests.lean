import Mathlib.Data.List.Perm.Subperm
import Mathlib.Data.List.Nodup
import Mathlib.Data.List.Range
import Mathlib.Logic.Relation
import TypeLoom.Graph.Digest
import TypeLoom.Proofs.Redirects
import TypeLoom.Proofs.References

/-! Digests with memory are the digests computed from scratch. A digest that met no cycle is
settled: it is the same below every stack from whose nodes it cannot be reached again, and this
covers every stack below which it is looked up. -/
namespace TypeLoom.Graph

section congr
variable {digest other : NodeId → String}

theorem targetText_congr (target : Target) (same : ∀ id, target = .node id → digest id = other id) :
    targetText digest target = targetText other target := by
  cases target with
  | node id => exact same id rfl
  | generic name => rfl

mutual

theorem useText_congr : (u : TypeUse) → (∀ id ∈ u.nodes, digest id = other id) →
    useText digest u = useText other u
  | ⟨.node id, depth, arguments⟩, same => by
    rw [TypeUse.nodes, List.forall_mem_cons] at same
    rw [useText, useText, targetText, targetText, same.1, useTexts_congr arguments same.2]
  | ⟨.generic name, depth, arguments⟩, same => by
    rw [TypeUse.nodes] at same
    rw [useText, useText, targetText, targetText, useTexts_congr arguments same]

theorem useTexts_congr : (uses : List TypeUse) →
    (∀ id ∈ TypeUse.nodesOfAll uses, digest id = other id) →
    useTexts digest uses = useTexts other uses
  | [], _ => rfl
  | u :: rest, same => by
    rw [TypeUse.nodesOfAll, List.forall_mem_append] at same
    rw [useTexts, useTexts, useText_congr u same.1, useTexts_congr rest same.2]

end

theorem usesText_congr (uses : List TypeUse)
    (same : ∀ u ∈ uses, ∀ id ∈ u.nodes, digest id = other id) :
    usesText digest uses = usesText other uses := by
  have all : ∀ id ∈ TypeUse.nodesOfAll uses, digest id = other id := by
    rw [TypeUse.nodesOfAll_eq]
    intro id member
    obtain ⟨u, inside, within⟩ := List.mem_flatMap.mp member
    exact same u inside id within
  rw [usesText, usesText, useTexts_congr uses all]

theorem propertyText_congr (p : Property) (same : ∀ id ∈ p.type.nodes, digest id = other id) :
    propertyText digest p = propertyText other p := by
  obtain ⟨name, ⟨target, depth, arguments⟩, optional, readonly, comment, default⟩ := p
  have text : targetText digest target = targetText other target := by
    apply targetText_congr
    rintro id rfl
    exact same id List.mem_cons_self
  have texts : useTexts digest arguments = useTexts other arguments := by
    apply useTexts_congr
    intro id member
    apply same
    cases target with
    | node own => exact List.mem_cons_of_mem own member
    | generic name => exact member
  simp only [propertyText, text, usesText, texts]

theorem shapeEntries_congr (hash : Hash) (s : Shape)
    (same : ∀ id ∈ s.digested, digest id = other id) :
    shapeEntries hash digest s = shapeEntries hash other s := by
  have base : ∀ id, s.base? = some id → digest id = other id := fun id found =>
    same id (List.mem_append_left _ (Option.mem_toList.mpr found))
  have own : ∀ u ∈ s.ownUses, ∀ id ∈ u.nodes, digest id = other id := fun u member id inside =>
    same id (List.mem_append_right _ (List.mem_flatMap.mpr ⟨u, member, inside⟩))
  have content : contentEntries hash digest s = contentEntries hash other s := by
    cases s with
    | record properties generics =>
      have hashes : properties.map (fun p => hash (bytes (propertyText digest p))) =
          properties.map (fun p => hash (bytes (propertyText other p))) :=
        List.map_congr_left fun p member => by
          rw [propertyText_congr p (own p.type (List.mem_map_of_mem member))]
      rw [contentEntries, contentEntries, hashes]
    | array element generics =>
      rw [contentEntries, contentEntries,
        useText_congr element (own element (List.mem_singleton_self _))]
    | stringUnion members => rfl
    | primitive kind => rfl
    | dictionary key value generics =>
      rw [contentEntries, contentEntries,
        useText_congr value (own value (List.mem_singleton_self _))]
    | constants items =>
      refine List.flatMap_congr fun c member => ?_
      rw [constantText, constantText,
        useText_congr c.type (own c.type (List.mem_map_of_mem member))]
    | tuple elements generics =>
      refine congrArg (_ ++ ·) (List.flatMap_congr fun e member => ?_)
      rw [useText_congr e (own e member)]
    | instantiation root arguments generics =>
      rw [contentEntries, contentEntries, base root rfl, usesText_congr arguments own]
    | classUnion arity => rfl
    | classUnionInstance root members =>
      rw [contentEntries, contentEntries, base root rfl, usesText_congr members own]
  rw [shapeEntries, shapeEntries, content]

end congr

section below
variable (hash : Hash) {g : Graph} (level : Nat) {stack : List NodeId} {id : NodeId}

theorem digestBelow_of_mem (onStack : g.resolve id ∈ stack) :
    digestBelow hash g level stack id = cycleMark := by
  cases level with
  | zero => rfl
  | succ level => rw [digestBelow, if_pos (List.contains_iff_mem.mpr onStack)]

theorem digestBelow_of_missing (missing : g.nodes[g.resolve id]? = none) :
    digestBelow hash g level stack id = cycleMark := by
  cases level with
  | zero => rfl
  | succ level => simp only [digestBelow, missing, ite_self]

theorem digestBelow_of_node {node : Node} (fresh : g.resolve id ∉ stack)
    (found : g.nodes[g.resolve id]? = some node) : digestBelow hash g (level + 1) stack id =
      hash (shapeEntries hash (digestBelow hash g level (g.resolve id :: stack)) node.shape) := by
  rw [digestBelow, if_neg (mt List.contains_iff_mem.mp fresh), found]

end below

theorem mem_of_full {stack : List Nat} {n id : Nat} (nodup : stack.Nodup)
    (inside : ∀ x ∈ stack, x < n) (full : n ≤ stack.length) (lt : id < n) : id ∈ stack := by
  have subset : stack ⊆ List.range n := fun x member => List.mem_range.mpr (inside x member)
  have all : (List.range n).length ≤ stack.length := by rwa [List.length_range]
  have perm := (nodup.subperm subset).perm_of_length_le all
  exact perm.mem_iff.mpr (List.mem_range.mpr lt)

/-- The stack holds different nodes, and `level` nodes are not on it. -/
structure Fits (g : Graph) (level : Nat) (stack : List NodeId) : Prop where
  nodup : stack.Nodup
  lt : ∀ id ∈ stack, id < g.nodes.size
  room : level + stack.length = g.nodes.size

namespace Fits
variable {g : Graph} {level : Nat} {stack : List NodeId} {id : NodeId}

theorem start (g : Graph) : g.Fits g.nodes.size [] := ⟨List.nodup_nil, by simp, rfl⟩

theorem push (fits : g.Fits (level + 1) stack) (lt : id < g.nodes.size) (fresh : id ∉ stack) :
    g.Fits level (id :: stack) where
  nodup := List.nodup_cons.mpr ⟨fresh, fits.nodup⟩
  lt := List.forall_mem_cons.mpr ⟨lt, fits.lt⟩
  room := by
    have room := fits.room
    rw [List.length_cons]
    omega

theorem full (fits : g.Fits 0 stack) (lt : id < g.nodes.size) : id ∈ stack := by
  refine mem_of_full fits.nodup fits.lt ?_ lt
  have room := fits.room
  omega

end Fits

/-- The digest of `a` is taken of the digest of `b`. -/
def DependsOn (g : Graph) (a b : NodeId) : Prop :=
  ∃ node, g.nodes[a]? = some node ∧ ∃ id ∈ node.shape.digested, g.resolve id = b

/-- A digest that is taken of settled digests only, so that no cycle is met. -/
inductive Settled (hash : Hash) (g : Graph) : NodeId → String → Prop
  | intro {id : NodeId} {node : Node} (digests : NodeId → String) (found : g.nodes[id]? = some node)
      (below : ∀ other ∈ node.shape.digested, Settled hash g (g.resolve other) (digests other)) :
      Settled hash g id (hash (shapeEntries hash digests node.shape))

namespace Settled
open Relation
variable {hash : Hash} {g : Graph} {id : NodeId} {digest : String}

theorem not_dependsOn_self (settled : Settled hash g id digest) : ¬ TransGen g.DependsOn id id := by
  induction settled with
  | @intro id node digests found below ih =>
    intro cycle
    obtain ⟨next, ⟨same, foundSame, other, member, rfl⟩, back⟩ := TransGen.head'_iff.mp cycle
    obtain rfl : node = same := Option.some.inj (found.symm.trans foundSame)
    exact ih other member (TransGen.tail' back ⟨node, found, other, member, rfl⟩)

/-- A settled digest is that below every stack that cannot be reached from its node. -/
theorem digestBelow_eq (settled : Settled hash g id digest) {level : Nat} {stack : List NodeId}
    (fits : g.Fits level stack) {start : NodeId} (resolved : g.resolve start = id)
    (apart : ∀ x ∈ stack, ¬ ReflTransGen g.DependsOn id x) :
    digestBelow hash g level stack start = digest := by
  induction settled generalizing level stack start with
  | @intro id node digests found below ih =>
    have fresh : id ∉ stack := fun member => apart id member .refl
    have lt : id < g.nodes.size := (Array.getElem?_eq_some_iff.mp found).1
    cases level with
    | zero => exact absurd (fits.full lt) fresh
    | succ level =>
      have entries : shapeEntries hash (digestBelow hash g level (id :: stack)) node.shape =
          shapeEntries hash digests node.shape := by
        apply shapeEntries_congr
        intro other member
        have step : g.DependsOn id (g.resolve other) := ⟨node, found, other, member, rfl⟩
        apply ih other member (fits.push lt fresh) rfl
        intro x onStack reach
        rcases List.mem_cons.mp onStack with rfl | below
        · exact (Settled.intro digests found ‹_›).not_dependsOn_self (TransGen.head' step reach)
        · exact apart x below (.head step reach)
      subst resolved
      rw [digestBelow_of_node hash level fresh found, entries]

end Settled

/-- Only settled digests are remembered. -/
def Known (hash : Hash) (g : Graph) (known : Table NodeId String) : Prop :=
  ∀ {id digest}, known.get? id = some digest → Settled hash g id digest

/-- What a walk to `id` has to give, `expected` being the digest from scratch. -/
structure Walk.Correct (hash : Hash) (g : Graph) (id : NodeId) (expected : String) (walk : Walk) :
    Prop where
  digest : walk.digest = expected
  known : Known hash g walk.known
  settled : walk.acyclic = true → Settled hash g (g.resolve id) expected

section walks
variable {hash : Hash} {g : Graph}

theorem walkAll_correct {walk : Table NodeId String → NodeId → Walk} {expected : NodeId → String}
    (ids : List NodeId)
    (correct : ∀ known, Known hash g known →
      ∀ id ∈ ids, (walk known id).Correct hash g id (expected id))
    (known : Table NodeId String) (memory : Known hash g known) :
    (∀ id ∈ ids, (walkAll walk known ids).1.get? id = some (expected id)) ∧
      ((walkAll walk known ids).2.1 = true →
        ∀ id ∈ ids, Settled hash g (g.resolve id) (expected id)) ∧
      Known hash g (walkAll walk known ids).2.2 := by
  induction ids generalizing known with
  | nil => exact ⟨by simp, by simp, memory⟩
  | cons id rest ih =>
    have first := correct known memory id List.mem_cons_self
    obtain ⟨digests, settled, after⟩ :=
      ih (fun known memory other member =>
        correct known memory other (List.mem_cons_of_mem id member))
        (walk known id).known first.known
    refine ⟨?_, ?_, after⟩
    · intro other member
      simp only [walkAll, Table.get?_insert]
      split_ifs with same
      · rw [same, first.digest]
      · exact digests other (List.mem_of_ne_of_mem same member)
    · intro acyclic
      obtain ⟨here, others⟩ := Bool.and_eq_true_iff.mp acyclic
      exact List.forall_mem_cons.mpr ⟨first.settled here, settled others⟩

open Relation in
/-- The nodes on the stack are those that have led to the present one. -/
theorem walkBelow_correct (hash : Hash) (level : Nat) : ∀ (stack : List NodeId)
    (known : Table NodeId String) (id : NodeId), g.Fits level stack → Known hash g known →
    (∀ x ∈ stack, TransGen g.DependsOn x (g.resolve id)) →
    (walkBelow hash g level stack known id).Correct hash g id
      (digestBelow hash g level stack id) := by
  induction level with
  | zero =>
    intro stack known id _ memory _
    exact ⟨rfl, memory, nofun⟩
  | succ level ih =>
    intro stack known id fits memory leads
    rw [walkBelow]
    cases hit : known.get? (g.resolve id) with
    | some digest =>
      have settled := memory hit
      have same : digestBelow hash g (level + 1) stack id = digest := by
        apply settled.digestBelow_eq fits rfl
        intro x member reach
        exact settled.not_dependsOn_self ((leads x member).trans_right reach)
      exact ⟨same.symm, memory, fun _ => same ▸ settled⟩
    | none =>
      by_cases onStack : g.resolve id ∈ stack
      · rw [if_pos (List.contains_iff_mem.mpr onStack), digestBelow_of_mem hash _ onStack]
        exact ⟨rfl, memory, nofun⟩
      · rw [if_neg (mt List.contains_iff_mem.mp onStack)]
        cases found : g.nodes[g.resolve id]? with
        | none =>
          rw [digestBelow_of_missing hash _ found]
          exact ⟨rfl, memory, nofun⟩
        | some node =>
          have lt : g.resolve id < g.nodes.size := (Array.getElem?_eq_some_iff.mp found).1
          have next : ∀ known, Known hash g known → ∀ other ∈ node.shape.digested,
              (walkBelow hash g level (g.resolve id :: stack) known other).Correct hash g other
                (digestBelow hash g level (g.resolve id :: stack) other) := by
            intro known memory other member
            have step : g.DependsOn (g.resolve id) (g.resolve other) :=
              ⟨node, found, other, member, rfl⟩
            apply ih _ known other (fits.push lt onStack) memory
            exact List.forall_mem_cons.mpr ⟨.single step, fun x below => (leads x below).tail step⟩
          obtain ⟨digests, settled, after⟩ := walkAll_correct node.shape.digested next known memory
          have entries : shapeEntries hash (fun other =>
                ((walkAll (walkBelow hash g level (g.resolve id :: stack)) known
                  node.shape.digested).1.get? other).getD cycleMark) node.shape =
              shapeEntries hash (digestBelow hash g level (g.resolve id :: stack)) node.shape :=
            shapeEntries_congr hash node.shape fun other member => by
              rw [digests other member, Option.getD_some]
          have keep : (walkAll (walkBelow hash g level (g.resolve id :: stack)) known
                node.shape.digested).2.1 = true → Settled hash g (g.resolve id)
              (hash (shapeEntries hash
                (digestBelow hash g level (g.resolve id :: stack)) node.shape)) :=
            fun acyclic => .intro _ found (settled acyclic)
          rw [digestBelow_of_node hash level onStack found]
          dsimp only
          rw [entries]
          refine ⟨rfl, ?_, keep⟩
          intro key digest remembered
          dsimp only at remembered
          split_ifs at remembered with acyclic
          · rw [Table.get?_insert] at remembered
            split_ifs at remembered with same
            · rw [same, ← Option.some.inj remembered]
              exact keep acyclic
            · exact after remembered
          · exact after remembered

end walks

/-- The digest of a node below a stack, taken without memory and to any depth. -/
inductive TakenBelow (hash : Hash) (g : Graph) : List NodeId → NodeId → String → Prop
  | onStack {stack : List NodeId} {id : NodeId} (member : g.resolve id ∈ stack) :
      TakenBelow hash g stack id cycleMark
  | missing {stack : List NodeId} {id : NodeId} (fresh : g.resolve id ∉ stack)
      (absent : g.nodes[g.resolve id]? = none) : TakenBelow hash g stack id cycleMark
  | node {stack : List NodeId} {id : NodeId} {node : Node} (digests : NodeId → String)
      (fresh : g.resolve id ∉ stack) (found : g.nodes[g.resolve id]? = some node)
      (below : ∀ other ∈ node.shape.digested,
        TakenBelow hash g (g.resolve id :: stack) other (digests other)) :
      TakenBelow hash g stack id (hash (shapeEntries hash digests node.shape))

section scratch
variable {hash : Hash} {g : Graph}

theorem TakenBelow.unique {stack : List NodeId} {id : NodeId} {digest other : String}
    (first : TakenBelow hash g stack id digest) (second : TakenBelow hash g stack id other) :
    digest = other := by
  induction first generalizing other with
  | onStack member =>
    cases second with
    | onStack _ => rfl
    | missing fresh _ => exact absurd member fresh
    | node _ fresh _ _ => exact absurd member fresh
  | missing fresh absent =>
    cases second with
    | onStack member => exact absurd member fresh
    | missing _ _ => rfl
    | node _ _ found _ => exact nomatch absent.symm.trans found
  | node digests fresh found below ih =>
    cases second with
    | onStack member => exact absurd member fresh
    | missing _ absent => exact nomatch absent.symm.trans found
    | node digests' _ found' below' =>
      obtain rfl := Option.some.inj (found.symm.trans found')
      rw [shapeEntries_congr hash _ fun j member => ih j member (below' j member)]

/-- The bound on the depth is never felt: at level zero all nodes are on the stack. -/
theorem takenBelow_digestBelow (level : Nat) : ∀ (stack : List NodeId) (id : NodeId),
    g.Fits level stack → TakenBelow hash g stack id (digestBelow hash g level stack id) := by
  induction level with
  | zero =>
    intro stack id fits
    by_cases onStack : g.resolve id ∈ stack
    · exact .onStack onStack
    · refine .missing onStack (Array.getElem?_eq_none_iff.mpr ?_)
      exact Nat.le_of_not_lt fun lt => onStack (fits.full lt)
  | succ level ih =>
    intro stack id fits
    by_cases onStack : g.resolve id ∈ stack
    · rw [digestBelow_of_mem hash _ onStack]
      exact .onStack onStack
    · cases found : g.nodes[g.resolve id]? with
      | none =>
        rw [digestBelow_of_missing hash _ found]
        exact .missing onStack found
      | some node =>
        have lt : g.resolve id < g.nodes.size := (Array.getElem?_eq_some_iff.mp found).1
        rw [digestBelow_of_node hash level onStack found]
        exact .node _ onStack found fun other _ => ih _ other (fits.push lt onStack)

theorem takenBelow_iff_eq_plainDigest (id : NodeId) (digest : String) :
    TakenBelow hash g [] id digest ↔ digest = plainDigest hash g id := by
  have taken : TakenBelow hash g [] id (plainDigest hash g id) :=
    takenBelow_digestBelow g.nodes.size [] id (Fits.start g)
  exact ⟨fun other => other.unique taken, fun same => same ▸ taken⟩

end scratch

/-- Nothing has changed that digests are taken of. -/
structure SameShapes (g g' : Graph) : Prop where
  redirects : g'.redirects = g.redirects
  shapes : g'.nodes.map Node.shape = g.nodes.map Node.shape

namespace SameShapes
variable {g g' : Graph}

theorem refl (g : Graph) : SameShapes g g := ⟨rfl, rfl⟩

theorem trans {g'' : Graph} (first : SameShapes g g') (second : SameShapes g' g'') :
    SameShapes g g'' :=
  ⟨second.redirects.trans first.redirects, second.shapes.trans first.shapes⟩

theorem size_eq (same : SameShapes g g') : g'.nodes.size = g.nodes.size := by
  simpa using congrArg Array.size same.shapes

theorem resolve_eq (same : SameShapes g g') (id : NodeId) : g'.resolve id = g.resolve id := by
  rw [resolve, resolve, same.redirects]

theorem shape?_eq (same : SameShapes g g') (id : NodeId) :
    (g'.nodes[id]?).map Node.shape = (g.nodes[id]?).map Node.shape := by
  rw [← Array.getElem?_map, ← Array.getElem?_map, same.shapes]

theorem digestBelow_eq (same : SameShapes g g') (hash : Hash) (level : Nat) :
    ∀ (stack : List NodeId) (id : NodeId),
      digestBelow hash g' level stack id = digestBelow hash g level stack id := by
  induction level with
  | zero => intro stack id; rfl
  | succ level ih =>
    intro stack id
    have shape := same.shape?_eq (g.resolve id)
    have below : digestBelow hash g' level (g.resolve id :: stack) =
        digestBelow hash g level (g.resolve id :: stack) := funext (ih _)
    rw [digestBelow, digestBelow, same.resolve_eq, below]
    cases old : g.nodes[g.resolve id]? with
    | none =>
      rw [old, Option.map_none, Option.map_eq_none_iff] at shape
      rw [shape]
    | some node =>
      rw [old, Option.map_some] at shape
      obtain ⟨node', new, shape'⟩ := Option.map_eq_some_iff.mp shape
      simp only [new, shape']

theorem plainDigest_eq (same : SameShapes g g') (hash : Hash) (id : NodeId) :
    plainDigest hash g' id = plainDigest hash g id := by
  rw [plainDigest, plainDigest, same.size_eq, same.digestBelow_eq]

theorem settled {hash : Hash} (same : SameShapes g g') {id : NodeId} {digest : String}
    (settled : Settled hash g id digest) : Settled hash g' id digest := by
  induction settled with
  | @intro id node digests found below ih =>
    have shape := same.shape?_eq id
    rw [found, Option.map_some] at shape
    obtain ⟨node', found', shape'⟩ := Option.map_eq_some_iff.mp shape
    rw [← shape']
    refine .intro digests found' fun other member => ?_
    rw [same.resolve_eq]
    exact ih other (shape' ▸ member)

theorem known {hash : Hash} (same : SameShapes g g') {known : Table NodeId String}
    (memory : Known hash g known) : Known hash g' known := fun hit => same.settled (memory hit)

end SameShapes

/-- As long as the cache is not stale, it holds digests of the graph as it is. -/
structure CacheSound (hash : Hash) (g : Graph) : Prop where
  asked : g.cache.stale = false →
    ∀ {id digest}, g.cache.asked.get? id = some digest → digest = plainDigest hash g id
  acyclic : g.cache.stale = false → Known hash g g.cache.acyclic

namespace CacheSound
variable {hash : Hash} {g g' : Graph}

theorem of_stale (stale : g.cache.stale = true) : CacheSound hash g where
  asked fresh := nomatch stale.symm.trans fresh
  acyclic fresh := nomatch stale.symm.trans fresh

theorem of_empty (empty : g.cache = {}) : CacheSound hash g where
  asked _ {_ _} hit := by rw [empty] at hit; cases hit
  acyclic _ {_ _} hit := by rw [empty] at hit; cases hit

theorem of_same (sound : CacheSound hash g) (same : SameShapes g g') (cache : g'.cache = g.cache) :
    CacheSound hash g' where
  asked fresh {_ _} hit := by
    rw [cache] at fresh hit
    rw [same.plainDigest_eq]
    exact sound.asked fresh hit
  acyclic fresh := by
    rw [cache] at fresh ⊢
    exact same.known (sound.acyclic fresh)

theorem refreshCache (sound : CacheSound hash g) : CacheSound hash g.refreshCache := by
  rw [Graph.refreshCache]
  split_ifs with stale
  · exact of_empty rfl
  · exact sound

/-- A question to the cache is answered as from scratch, and the cache stays sound. -/
theorem digest_spec (sound : CacheSound hash g) (id : NodeId) :
    (g.digest hash id).1 = plainDigest hash g (g.resolve id) ∧
    CacheSound hash (g.digest hash id).2 ∧
      SameShapes g (g.digest hash id).2 := by
  have fresh := sound.refreshCache
  have refreshed : SameShapes g g.refreshCache := by
    rw [Graph.refreshCache]
    split_ifs with stale <;> exact ⟨rfl, rfl⟩
  have notStale : g.refreshCache.cache.stale = false := by
    rw [Graph.refreshCache]
    split_ifs with stale
    · rfl
    · exact Bool.eq_false_iff.mpr stale
  rw [← refreshed.plainDigest_eq, ← refreshed.resolve_eq]
  simp only [Graph.digest]
  generalize g.refreshCache = g' at *
  cases hit : g'.cache.asked.get? (g'.resolve id) with
  | some digest => exact ⟨fresh.asked notStale hit, fresh, refreshed⟩
  | none =>
    have walk := walkBelow_correct hash g'.nodes.size [] g'.cache.acyclic (g'.resolve id)
      (Fits.start g') (fresh.acyclic notStale) (by simp)
    have same : SameShapes g' { g' with cache := { g'.cache with
        asked := g'.cache.asked.insert (g'.resolve id)
          (walkBelow hash g' g'.nodes.size [] g'.cache.acyclic (g'.resolve id)).digest
        acyclic :=
          (walkBelow hash g' g'.nodes.size [] g'.cache.acyclic (g'.resolve id)).known } } :=
      ⟨rfl, rfl⟩
    refine ⟨walk.digest, ⟨?_, fun _ => same.known walk.known⟩, refreshed.trans same⟩
    intro _ key digest asked
    rw [same.plainDigest_eq]
    rw [Table.get?_insert] at asked
    split_ifs at asked with this
    · rw [← Option.some.inj asked, this]
      exact walk.digest
    · exact fresh.asked notStale asked

theorem digests_spec (sound : CacheSound hash g) (ids : List NodeId) :
    (g.digests hash ids).1 = ids.map (fun id => (id, plainDigest hash g (g.resolve id))) ∧
      CacheSound hash (g.digests hash ids).2 := by
  induction ids generalizing g with
  | nil => exact ⟨rfl, sound⟩
  | cons id rest ih =>
    obtain ⟨answer, after, same⟩ := sound.digest_spec id
    obtain ⟨others, last⟩ := ih after
    refine ⟨?_, last⟩
    simp only [digests, others, answer, same.plainDigest_eq, same.resolve_eq, List.map_cons]

end CacheSound

theorem digest_frame (hash : Hash) (g : Graph) (id : NodeId) :
    ∃ cache, (g.digest hash id).2 = { g with cache := cache } := by
  have refreshed : ∃ cache, g.refreshCache = { g with cache := cache } := by
    rw [refreshCache]
    split_ifs
    · exact ⟨{}, rfl⟩
    · exact ⟨g.cache, rfl⟩
  obtain ⟨cache, same⟩ := refreshed
  simp only [digest, same]
  split
  · exact ⟨cache, rfl⟩
  · exact ⟨_, rfl⟩

theorem digests_frame (hash : Hash) (g : Graph) (ids : List NodeId) :
    ∃ cache, (g.digests hash ids).2 = { g with cache := cache } := by
  induction ids generalizing g with
  | nil => exact ⟨g.cache, rfl⟩
  | cons id rest ih =>
    obtain ⟨cache, same⟩ := digest_frame hash g id
    obtain ⟨last, done⟩ := ih { g with cache := cache }
    exact ⟨last, by simp only [digests, same, done]⟩

end TypeLoom.Graph
