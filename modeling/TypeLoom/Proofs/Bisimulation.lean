import Mathlib.Data.List.Permutation
import TypeLoom.Proofs.Encoding
import TypeLoom.Proofs.Operations

/-! Equal digests against equal types. Two nodes are bisimilar if no chain of property names tells
them apart. A reference back to a node on the way counts as one fixed mark, so digests do not say
which node on the way it leads to: nodes of equal digest are bisimilar exactly if chains that come
back do so alike on both sides. -/
namespace TypeLoom.Graph

/-- Two nodes of one primitive type, or two records with the same properties up to `related`. -/
inductive Similar (g : Graph) (related : NodeId → NodeId → Prop) (x y : NodeId) : Prop
  | primitive {m n : Node} {kind : Primitive} (foundX : g.nodes[x]? = some m)
      (foundY : g.nodes[y]? = some n) (shapeX : m.shape = .primitive kind)
      (shapeY : n.shape = .primitive kind)
  | record {m n : Node} {ps qs : List Property} {gs hs : List Parameter}
      (foundX : g.nodes[x]? = some m) (foundY : g.nodes[y]? = some n)
      (shapeX : m.shape = .record ps gs) (shapeY : n.shape = .record qs hs)
      (outlines : ∀ outline, outline ∈ ps.map Property.outline ↔ outline ∈ qs.map Property.outline)
      (targets : ∀ p ∈ ps, ∀ q ∈ qs, p.name = q.name → ∃ c d, p.type.target = .node c ∧
        q.type.target = .node d ∧ related (g.resolve c) (g.resolve d))

theorem Similar.mono {g : Graph} {r s : NodeId → NodeId → Prop} (sub : ∀ x y, r x y → s x y)
    {x y : NodeId} (similar : Similar g r x y) : Similar g s x y := by
  cases similar with
  | primitive foundX foundY shapeX shapeY => exact .primitive foundX foundY shapeX shapeY
  | record foundX foundY shapeX shapeY outlines targets =>
    refine .record foundX foundY shapeX shapeY outlines fun p memberP q memberQ name => ?_
    obtain ⟨c, d, targetP, targetQ, next⟩ := targets p memberP q memberQ name
    exact ⟨c, d, targetP, targetQ, sub _ _ next⟩

/-- Some relation between the nodes holds on to itself along properties. -/
def Bisimilar (g : Graph) (a b : NodeId) : Prop :=
  ∃ related : NodeId → NodeId → Prop, related a b ∧ ∀ x y, related x y → Similar g related x y

theorem Bisimilar.similar {g : Graph} {a b : NodeId} (bisimilar : Bisimilar g a b) :
    Similar g (Bisimilar g) a b := by
  obtain ⟨related, here, step⟩ := bisimilar
  exact (step a b here).mono fun x y next => ⟨related, next, step⟩

/-- A property of one name leads from `x` and `y` to the next two nodes. -/
inductive Follows (g : Graph) (x y : NodeId) : NodeId → NodeId → Prop
  | intro {m n : Node} {p q : Property} {c d : NodeId} (foundX : g.nodes[x]? = some m)
      (foundY : g.nodes[y]? = some n) (memberP : p ∈ m.shape.properties)
      (memberQ : q ∈ n.shape.properties) (name : p.name = q.name)
      (targetP : p.type.target = .node c) (targetQ : q.type.target = .node d) :
      Follows g x y (g.resolve c) (g.resolve d)

theorem Similar.follows {g : Graph} {related : NodeId → NodeId → Prop} {x y x' y' : NodeId}
    (similar : Similar g related x y) (next : Follows g x y x' y') : related x' y' := by
  obtain ⟨foundX, foundY, memberP, memberQ, name, targetP, targetQ⟩ := next
  cases similar with
  | primitive foundX' _ shapeX _ =>
    rw [foundX] at foundX'
    cases foundX'
    rw [shapeX] at memberP
    cases memberP
  | record foundX' foundY' shapeX shapeY _ targets =>
    rw [foundX] at foundX'
    rw [foundY] at foundY'
    cases foundX'
    cases foundY'
    rw [shapeX] at memberP
    rw [shapeY] at memberQ
    obtain ⟨c, d, targetP', targetQ', here⟩ := targets _ memberP _ memberQ name
    rw [targetP] at targetP'
    rw [targetQ] at targetQ'
    cases targetP'
    cases targetQ'
    exact here

/-- `x` and `y` are reached from `a` and `b` by one chain of property names, and `trail` are the
pairs of nodes on the way, none of them twice on the side of `a`. -/
inductive Lockstep (g : Graph) (a b : NodeId) : List (NodeId × NodeId) → NodeId → NodeId → Prop
  | start : Lockstep g a b [] a b
  | step {trail : List (NodeId × NodeId)} {x y x' y' : NodeId} (before : Lockstep g a b trail x y)
      (fresh : x ∉ trail.map Prod.fst) (next : Follows g x y x' y') :
      Lockstep g a b ((x, y) :: trail) x' y'

namespace Lockstep
variable {g : Graph} {a b x y : NodeId} {trail : List (NodeId × NodeId)}

theorem earlier (chain : Lockstep g a b trail x y) : ∀ pair ∈ trail,
    ∃ before, Lockstep g a b before pair.1 pair.2 ∧ pair.1 ∉ before.map Prod.fst := by
  induction chain with
  | start => simp
  | step before fresh _ ih => exact List.forall_mem_cons.mpr ⟨⟨_, before, fresh⟩, ih⟩

theorem bisimilar (chain : Lockstep g a b trail x y) (start : Bisimilar g a b) :
    Bisimilar g x y := by
  induction chain with
  | start => exact start
  | step _ _ next ih => exact ih.similar.follows next

end Lockstep

/-- Every text that is hashed for the digest of a node below a stack. -/
def textsBelow (hash : Hash) (g : Graph) : (level : Nat) → (stack : List NodeId) → NodeId →
    List (List UInt8)
  | 0, _, _ => []
  | level + 1, stack, id =>
    let id := g.resolve id
    if stack.contains id then []
    else match g.nodes[id]? with
      | none => []
      | some node =>
        let digest := digestBelow hash g level (id :: stack)
        shapeEntries hash digest node.shape ::
          (node.shape.properties.map (fun p => bytes (propertyText digest p)) ++
            node.shape.digested.flatMap (textsBelow hash g level (id :: stack)))

/-- Different texts hashed for the digests of `a` and of `b` have different hashes. -/
def CollisionFree (hash : Hash) (g : Graph) (a b : NodeId) : Prop :=
  ∀ s ∈ textsBelow hash g g.nodes.size [] a, ∀ t ∈ textsBelow hash g g.nodes.size [] b,
    hash s = hash t → s = t

section live
variable (hash : Hash) {g : Graph} (level : Nat) {stack : List NodeId} {x : NodeId} {node : Node}
  (live : g.isLive x = true) (fresh : x ∉ stack) (found : g.nodes[x]? = some node)
include live fresh found

theorem digestBelow_of_live : digestBelow hash g (level + 1) stack x =
    hash (shapeEntries hash (digestBelow hash g level (x :: stack)) node.shape) := by
  have last := resolve_of_isLive live
  rw [← last] at fresh found
  rw [digestBelow_of_node hash level fresh found, last]

theorem textsBelow_of_live : textsBelow hash g (level + 1) stack x =
    shapeEntries hash (digestBelow hash g level (x :: stack)) node.shape ::
      (node.shape.properties.map
          (fun p => bytes (propertyText (digestBelow hash g level (x :: stack)) p)) ++
        node.shape.digested.flatMap (textsBelow hash g level (x :: stack))) := by
  rw [textsBelow, resolve_of_isLive live, if_neg (mt List.contains_iff_mem.mp fresh), found]

end live

section resolved
variable (hash : Hash) {g : Graph} (sound : g.Sound) (level : Nat) (stack : List NodeId)
  (id : NodeId)
include sound

theorem digestBelow_resolve :
    digestBelow hash g level stack (g.resolve id) = digestBelow hash g level stack id := by
  cases level with
  | zero => rfl
  | succ level => rw [digestBelow, digestBelow, sound.resolve_resolve]

theorem textsBelow_resolve :
    textsBelow hash g level stack (g.resolve id) = textsBelow hash g level stack id := by
  cases level with
  | zero => rfl
  | succ level => rw [textsBelow, textsBelow, sound.resolve_resolve]

end resolved

theorem Shape.digested_subset_outgoing (s : Shape) : s.digested ⊆ s.outgoing := by
  intro id member
  rw [digested, List.mem_append] at member
  rw [outgoing, typeUses, List.flatMap_append, List.mem_append, List.mem_append]
  exact member.imp_right Or.inr

theorem Shape.mem_digested {s : Shape} {p : Property} {id : NodeId} (member : p ∈ s.properties)
    (target : p.type.target = .node id) : id ∈ s.digested := by
  have own := TypeUse.mem_nodes_of_target target
  cases s with
  | record ps gs =>
    rw [digested, List.mem_append]
    exact .inr (List.mem_flatMap.mpr ⟨p.type, List.mem_map.mpr ⟨p, member, rfl⟩, own⟩)
  | _ => cases member

/-- Along a chain the nodes of both sides have equal digests below the nodes on the way. -/
structure Paired (hash : Hash) (g : Graph) (a b : NodeId) (level : Nat)
    (trail : List (NodeId × NodeId)) (x y : NodeId) : Prop where
  fitsX : g.Fits level (trail.map Prod.fst)
  fitsY : g.Fits level (trail.map Prod.snd)
  liveX : g.isLive x = true
  liveY : g.isLive y = true
  equal : digestBelow hash g level (trail.map Prod.fst) x =
    digestBelow hash g level (trail.map Prod.snd) y
  textsX : textsBelow hash g level (trail.map Prod.fst) x ⊆ textsBelow hash g g.nodes.size [] a
  textsY : textsBelow hash g level (trail.map Prod.snd) y ⊆ textsBelow hash g g.nodes.size [] b

section pairs
variable {hash : Hash} {g : Graph} {a b x y : NodeId} {trail : List (NodeId × NodeId)} {level : Nat}
  {m n : Node}

theorem Paired.fresh_right (hex : HexDigest hash) (paired : Paired hash g a b (level + 1) trail x y)
    (fresh : x ∉ trail.map Prod.fst) (foundX : g.nodes[x]? = some m) : y ∉ trail.map Prod.snd := by
  intro onTrail
  have equal := paired.equal
  rw [← resolve_of_isLive paired.liveY] at onTrail
  rw [digestBelow_of_live hash level paired.liveX fresh foundX, digestBelow_of_mem hash _ onTrail]
    at equal
  exact hex.ne_cycleMark _ equal

theorem Paired.level_pos (paired : Paired hash g a b level trail x y)
    (fresh : x ∉ trail.map Prod.fst) : ∃ below, level = below + 1 := by
  cases level with
  | zero => exact absurd (paired.fitsX.full ((g.isLive_iff x).mp paired.liveX).1) fresh
  | succ below => exact ⟨below, rfl⟩

theorem Paired.alike (hex : HexDigest hash) (free : CollisionFree hash g a b)
    (paired : Paired hash g a b (level + 1) trail x y) (fresh : x ∉ trail.map Prod.fst)
    (foundX : g.nodes[x]? = some m) (foundY : g.nodes[y]? = some n)
    (plainX : m.shape.Plain) (plainY : n.shape.Plain) :
    (∃ kind, m.shape = .primitive kind ∧ n.shape = .primitive kind) ∨
    ∃ ps qs, m.shape = .record ps [] ∧ n.shape = .record qs [] ∧
      Covers (digestBelow hash g level (x :: trail.map Prod.fst))
        (digestBelow hash g level (y :: trail.map Prod.snd)) ps qs ∧
      Covers (digestBelow hash g level (y :: trail.map Prod.snd))
        (digestBelow hash g level (x :: trail.map Prod.fst)) qs ps := by
  have freshY := paired.fresh_right hex fresh foundX
  obtain ⟨-, -, liveX, liveY, equal, textsX, textsY⟩ := paired
  rw [digestBelow_of_live hash level liveX fresh foundX,
    digestBelow_of_live hash level liveY freshY foundY] at equal
  rw [textsBelow_of_live hash level liveX fresh foundX, List.cons_subset, List.append_subset]
    at textsX
  rw [textsBelow_of_live hash level liveY freshY foundY, List.cons_subset, List.append_subset]
    at textsY
  have entries := free _ textsX.1 _ textsY.1 equal
  have properties : ∀ p ∈ m.shape.properties, ∀ q ∈ n.shape.properties, _ :=
    fun p memberP q memberQ =>
    free _ (textsX.2.1 (List.mem_map.mpr ⟨p, memberP, rfl⟩)) _
      (textsY.2.1 (List.mem_map.mpr ⟨q, memberQ, rfl⟩))
  revert entries properties plainX plainY
  generalize m.shape = s
  generalize n.shape = t
  intro plainX plainY entries properties
  cases plainX with
  | primitive j =>
    cases plainY with
    | primitive k => exact .inl ⟨j, rfl, by rw [primitive_of_entries entries]⟩
    | record names ground => exact absurd entries.symm (recordEntries_ne_primitiveEntries _ _ _ _ _)
  | @record ps names ground =>
    cases plainY with
    | primitive k => exact absurd entries (recordEntries_ne_primitiveEntries _ _ _ _ _)
    | @record qs names ground =>
      refine .inr ⟨ps, qs, rfl, rfl, covers_of_recordEntries hex entries properties, ?_⟩
      exact covers_of_recordEntries hex entries.symm fun q memberQ p memberP same =>
        (properties p memberP q memberQ same.symm).symm

/-- Every live node is a primitive or a record without type parameters. -/
def AllPlain (g : Graph) : Prop :=
  ∀ id node, g.isLive id = true → g.nodes[id]? = some node → node.shape.Plain

theorem Paired.next (sound : g.Sound) (closed : g.Closed) (plain : AllPlain g)
    (hex : HexDigest hash)
    (free : CollisionFree hash g a b) (paired : Paired hash g a b (level + 1) trail x y)
    (fresh : x ∉ trail.map Prod.fst) {x' y' : NodeId} (next : Follows g x y x' y') :
    Paired hash g a b level ((x, y) :: trail) x' y' := by
  obtain @⟨m, n, p, q, c, d, foundX, foundY, memberP, memberQ, name, targetP, targetQ⟩ := next
  have freshY := paired.fresh_right hex fresh foundX
  have plainX := plain x m paired.liveX foundX
  have plainY := plain y n paired.liveY foundY
  have alike := paired.alike hex free fresh foundX foundY plainX plainY
  have cleanX := hex.unseparated_digestBelow g level (x :: trail.map Prod.fst)
  have cleanY := hex.unseparated_digestBelow g level (y :: trail.map Prod.snd)
  have texts : propertyText (digestBelow hash g level (x :: trail.map Prod.fst)) p =
      propertyText (digestBelow hash g level (y :: trail.map Prod.snd)) q := by
    have groundX := plainX.ground_of_mem
    have groundY := plainY.ground_of_mem
    have names := plainY.names_nodup
    rcases alike with ⟨kind, shapeX, -⟩ | ⟨ps, qs, shapeX, shapeY, covers, -⟩
    · rw [shapeX] at memberP
      cases memberP
    · rw [shapeX] at memberP groundX
      rw [shapeY] at memberQ groundY names
      exact covers.text_eq cleanX cleanY groundX groundY names memberP memberQ name
  obtain ⟨-, c', d', targetP', targetQ', same⟩ := propertyText_inj cleanX cleanY
    (plainX.ground_of_mem p memberP) (plainY.ground_of_mem q memberQ) texts
  obtain rfl : c = c' := Target.node.inj (targetP.symm.trans targetP')
  obtain rfl : d = d' := Target.node.inj (targetQ.symm.trans targetQ')
  obtain ⟨fitsX, fitsY, liveX, liveY, equal, textsX, textsY⟩ := paired
  have inX := Shape.mem_digested memberP targetP
  have inY := Shape.mem_digested memberQ targetQ
  have ltX := closed foundX c (Shape.digested_subset_outgoing _ inX)
  have ltY := closed foundY d (Shape.digested_subset_outgoing _ inY)
  rw [textsBelow_of_live hash level liveX fresh foundX, List.cons_subset, List.append_subset]
    at textsX
  rw [textsBelow_of_live hash level liveY freshY foundY, List.cons_subset, List.append_subset]
    at textsY
  constructor
  · exact fitsX.push ((g.isLive_iff x).mp liveX).1 fresh
  · exact fitsY.push ((g.isLive_iff y).mp liveY).1 freshY
  · exact sound.isLive_resolve ltX
  · exact sound.isLive_resolve ltY
  · rw [digestBelow_resolve hash sound, digestBelow_resolve hash sound]
    exact same
  · rw [textsBelow_resolve hash sound]
    exact fun text member => textsX.2.2 (List.mem_flatMap.mpr ⟨c, inX, member⟩)
  · rw [textsBelow_resolve hash sound]
    exact fun text member => textsY.2.2 (List.mem_flatMap.mpr ⟨d, inY, member⟩)

theorem Paired.similar (plain : AllPlain g) (hex : HexDigest hash) (free : CollisionFree hash g a b)
    (paired : Paired hash g a b (level + 1) trail x y) (fresh : x ∉ trail.map Prod.fst)
    {related : NodeId → NodeId → Prop}
    (next : ∀ x' y', Follows g x y x' y' → related x' y') :
    Similar g related x y := by
  obtain ⟨m, foundX⟩ : ∃ m, g.nodes[x]? = some m :=
    ⟨_, Array.getElem?_eq_getElem ((g.isLive_iff x).mp paired.liveX).1⟩
  obtain ⟨n, foundY⟩ : ∃ n, g.nodes[y]? = some n :=
    ⟨_, Array.getElem?_eq_getElem ((g.isLive_iff y).mp paired.liveY).1⟩
  have plainX := plain x m paired.liveX foundX
  have plainY := plain y n paired.liveY foundY
  have cleanX := hex.unseparated_digestBelow g level (x :: trail.map Prod.fst)
  have cleanY := hex.unseparated_digestBelow g level (y :: trail.map Prod.snd)
  rcases paired.alike hex free fresh foundX foundY plainX plainY with
    ⟨kind, shapeX, shapeY⟩ | ⟨ps, qs, shapeX, shapeY, there, back⟩
  · exact .primitive foundX foundY shapeX shapeY
  · have groundX := plainX.ground_of_mem
    have groundY := plainY.ground_of_mem
    rw [shapeX] at groundX
    rw [shapeY] at groundY
    refine .record foundX foundY shapeX shapeY (fun outline => ?_)
      fun p memberP q memberQ name => ?_
    · exact ⟨fun member => there.outlines cleanX cleanY groundX groundY member,
        fun member => back.outlines cleanY cleanX groundY groundX member⟩
    · obtain ⟨c, targetP⟩ := (groundX p memberP).target_node
      obtain ⟨d, targetQ⟩ := (groundY q memberQ).target_node
      refine ⟨c, d, targetP, targetQ, next _ _ (.intro foundX foundY ?_ ?_ name targetP targetQ)⟩
      · rw [shapeX]
        exact memberP
      · rw [shapeY]
        exact memberQ

theorem Lockstep.paired (sound : g.Sound) (closed : g.Closed) (plain : AllPlain g)
    (hex : HexDigest hash) (free : CollisionFree hash g a b) (liveA : g.isLive a = true)
    (liveB : g.isLive b = true) (equal : plainDigest hash g a = plainDigest hash g b)
    (chain : Lockstep g a b trail x y) : ∃ level, Paired hash g a b level trail x y := by
  induction chain with
  | start =>
    exact ⟨g.nodes.size, Fits.start g, Fits.start g, liveA, liveB, equal, List.Subset.refl _,
      List.Subset.refl _⟩
  | step before fresh next ih =>
    obtain ⟨level, paired⟩ := ih
    obtain ⟨below, rfl⟩ := paired.level_pos fresh
    exact ⟨below, paired.next sound closed plain hex free fresh next⟩

end pairs

open Operation

/-- Among nodes without type parameters equal digests mean bisimilar nodes exactly if every chain
that comes back on the side of `a` comes back to a pair it has passed, or to bisimilar nodes. -/
theorem bisimilar_iff_returns_alike (hash : Hash) (hex : HexDigest hash) (ops : List Operation)
    (within : Within hash .empty ops) (plain : AllPlain (runAll hash .empty ops)) {a b : NodeId}
    (liveA : (runAll hash .empty ops).isLive a = true)
    (liveB : (runAll hash .empty ops).isLive b = true)
    (free : CollisionFree hash (runAll hash .empty ops) a b)
    (equal : ((runAll hash .empty ops).digest hash a).1 =
      ((runAll hash .empty ops).digest hash b).1) :
    Bisimilar (runAll hash .empty ops) a b ↔
      ∀ trail x y, Lockstep (runAll hash .empty ops) a b trail x y → x ∈ trail.map Prod.fst →
        (x, y) ∈ trail ∨ Bisimilar (runAll hash .empty ops) x y := by
  obtain ⟨sound, cache⟩ := runAll_sound hash ops empty_sound (.of_empty rfl)
  have closed := runAll_closed hash ops empty_sound empty_closed within
  rw [(cache.digest_spec a).1, (cache.digest_spec b).1, resolve_of_isLive liveA,
    resolve_of_isLive liveB] at equal
  generalize runAll hash .empty ops = g at *
  refine ⟨fun bisimilar trail x y chain _ => .inr (chain.bisimilar bisimilar), fun returns => ?_⟩
  -- Bisimilar pairs together with all pairs on chains that have not come back.
  refine ⟨fun x y => Bisimilar g x y ∨ ∃ trail, Lockstep g a b trail x y ∧ x ∉ trail.map Prod.fst,
    .inr ⟨[], .start, List.not_mem_nil⟩, ?_⟩
  rintro x y (bisimilar | ⟨trail, chain, fresh⟩)
  · exact bisimilar.similar.mono fun _ _ => .inl
  · obtain ⟨level, paired⟩ := chain.paired sound closed plain hex free liveA liveB equal
    obtain ⟨below, rfl⟩ := paired.level_pos fresh
    refine paired.similar plain hex free fresh fun x' y' next => ?_
    have chain' := chain.step fresh next
    by_cases back : x' ∈ ((x, y) :: trail).map Prod.fst
    · rcases returns _ x' y' chain' back with passed | bisimilar
      · exact .inr (chain'.earlier (x', y') passed)
      · exact .inl bisimilar
    · exact .inr ⟨_, chain', back⟩

/-- The text of a property that refers to a node of this digest. -/
def linkText (name digest : String) : String :=
  name ++ ":" ++ digest ++ "#" ++ boolText false ++ "#" ++ toString 0 ++ "#" ++ ""

/-- What the digest of a record with one such property is taken of. -/
def linkEntries (hash : Hash) (name digest : String) : List UInt8 :=
  entry "token" "record" ++ entry "property" (hash (bytes (linkText name digest)))

theorem propertyText_link (digest : NodeId → String) (name : String) (id : NodeId) :
    propertyText digest (.link name id) = linkText name (digest id) := rfl

theorem shapeEntries_link (hash : Hash) (digest : NodeId → String) (name : String) (id : NodeId) :
    shapeEntries hash digest (.record [.link name id] []) = linkEntries hash name (digest id) := by
  rw [recordEntries, List.map_singleton, List.mergeSort_singleton, List.flatMap_singleton,
    propertyText_link, linkEntries]

/-- The texts hashed for a node that refers to one that refers back. -/
def returnTexts (hash : Hash) (first second : String) : List (List UInt8) :=
  let below := linkEntries hash second cycleMark
  [linkEntries hash first (hash below), bytes (linkText first (hash below)), below,
    bytes (linkText second cycleMark)]

theorem digest_of_return (hash : Hash) {g : Graph} {x y z : NodeId} {first second : String}
    {m n : Node} (liveX : g.isLive x = true) (liveY : g.isLive y = true) (apart : y ≠ x)
    (foundX : g.nodes[x]? = some m) (foundY : g.nodes[y]? = some n)
    (shapeX : m.shape = .record [.link first y] []) (shapeY : n.shape = .record [.link second z] [])
    (back : g.resolve z ∈ [y, x]) :
    plainDigest hash g x =
      hash (linkEntries hash first (hash (linkEntries hash second cycleMark))) ∧
      textsBelow hash g g.nodes.size [] x = returnTexts hash first second := by
  have two : ∀ i j k : Nat, i < k → j < k → j ≠ i → ∃ level, k = level + 1 + 1 :=
    fun i j k _ _ _ => ⟨k - 2, by omega⟩
  obtain ⟨level, enough⟩ := two x y g.nodes.size ((g.isLive_iff x).mp liveX).1
    ((g.isLive_iff y).mp liveY).1 apart
  have fresh : y ∉ [x] := by simpa using apart
  have digested : ∀ name id, Shape.digested (.record [.link name id] []) = [id] := fun _ _ => rfl
  have properties : ∀ p, Shape.properties (.record [p] []) = [p] := fun _ => rfl
  have marked := digestBelow_of_mem hash level back
  have digestY :
      digestBelow hash g (level + 1) [x] y = hash (linkEntries hash second cycleMark) := by
    rw [digestBelow_of_live hash level liveY fresh foundY, shapeY, shapeEntries_link, marked]
  have ended : textsBelow hash g level [y, x] z = [] := by
    cases level with
    | zero => rfl
    | succ level => rw [textsBelow, if_pos (List.contains_iff_mem.mpr back)]
  have textsY : textsBelow hash g (level + 1) [x] y =
      [linkEntries hash second cycleMark, bytes (linkText second cycleMark)] := by
    rw [textsBelow_of_live hash level liveY fresh foundY, shapeY, shapeEntries_link, digested,
      properties, List.map_singleton, List.flatMap_singleton, propertyText_link, marked, ended]
    rfl
  constructor
  · rw [plainDigest, enough, digestBelow_of_live hash _ liveX List.not_mem_nil foundX, shapeX,
      shapeEntries_link, digestY]
  · rw [enough, textsBelow_of_live hash _ liveX List.not_mem_nil foundX, shapeX, shapeEntries_link,
      digested, properties, List.map_singleton, List.flatMap_singleton, propertyText_link, digestY,
      textsY]
    rfl

/-- A node that refers to one that refers back, and one that refers to one that refers to itself. -/
def Operation.tangle (first second : String) : List Operation :=
  [.register { name := "A", shape := .record [] [] },
    .register { name := "B", shape := .record [] [] },
    .register { name := "C", shape := .record [] [] },
    .register { name := "D", shape := .record [] [] },
    .addProperty 0 (.link first 1), .addProperty 1 (.link second 0),
    .addProperty 2 (.link first 3), .addProperty 3 (.link second 3)]

section tangle
variable (hash : Hash) (first second : String)

theorem tangle_redirects : (runAll hash .empty (tangle first second)).redirects = {} := by cbv

theorem tangle_shapes : (runAll hash .empty (tangle first second)).nodes.toList.map Node.shape =
    [.record [.link first 1] [], .record [.link second 0] [], .record [.link first 3] [],
      .record [.link second 3] []] := by cbv

theorem tangle_size : (runAll hash .empty (tangle first second)).nodes.size = 4 := by
  simpa using congrArg List.length (tangle_shapes hash first second)

theorem tangle_node (id : NodeId) {shape : Shape}
    (listed : ([.record [.link first 1] [], .record [.link second 0] [], .record [.link first 3] [],
      .record [.link second 3] []] : List Shape)[id]? = some shape) :
    ∃ node, (runAll hash .empty (tangle first second)).nodes[id]? = some node ∧
      node.shape = shape := by
  rw [← tangle_shapes hash first second, List.getElem?_map, Option.map_eq_some_iff] at listed
  simpa using listed

theorem tangle_within : Within hash .empty (tangle first second) := by
  have checked : decide (Within hash .empty (tangle first second)) = true := by cbv
  exact of_decide_eq_true checked

theorem tangle_live (id : NodeId) (lt : id < 4) :
    (runAll hash .empty (tangle first second)).isLive id = true := by
  rw [isLive_iff, tangle_size, tangle_redirects]
  exact ⟨lt, rfl⟩

theorem tangle_plain : AllPlain (runAll hash .empty (tangle first second)) := by
  intro id node _ found
  have member :
      node.shape ∈ (runAll hash .empty (tangle first second)).nodes.toList.map Node.shape :=
    List.mem_map.mpr ⟨node, Array.mem_toList_iff.mpr (Array.mem_of_getElem? found), rfl⟩
  have link : ∀ name target, Shape.Plain (.record [.link name target] []) := fun name target =>
    .record (List.nodup_singleton _) (by simp [Property.link, TypeUse.Ground, TypeUse.ofNode,
      TypeUse.mentions, TypeUse.anyMentions])
  rw [tangle_shapes] at member
  simp only [List.mem_cons, List.not_mem_nil, or_false] at member
  rcases member with shape | shape | shape | shape <;> rw [shape] <;> exact link _ _

end tangle

theorem tangle_digest (hash : Hash) (first second : String) :
    ((runAll hash .empty (tangle first second)).digest hash 0).1 =
      ((runAll hash .empty (tangle first second)).digest hash 2).1 ∧
    ∀ id ∈ [0, 2], textsBelow hash (runAll hash .empty (tangle first second))
      (runAll hash .empty (tangle first second)).nodes.size [] id =
        returnTexts hash first second := by
  obtain ⟨-, cache⟩ := runAll_sound hash (tangle first second) empty_sound (.of_empty rfl)
  have live := tangle_live hash first second
  obtain ⟨m, foundM, shapeM⟩ := tangle_node hash first second 0 rfl
  obtain ⟨n, foundN, shapeN⟩ := tangle_node hash first second 1 rfl
  obtain ⟨s, foundS, shapeS⟩ := tangle_node hash first second 2 rfl
  obtain ⟨t, foundT, shapeT⟩ := tangle_node hash first second 3 rfl
  have left :=
    digest_of_return hash (live 0 (by decide)) (live 1 (by decide)) (by decide) foundM foundN
    shapeM shapeN (by rw [resolve_of_isLive (live 0 (by decide))]; decide)
  have right :=
    digest_of_return hash (live 2 (by decide)) (live 3 (by decide)) (by decide) foundS foundT
    shapeS shapeT (by rw [resolve_of_isLive (live 3 (by decide))]; decide)
  constructor
  · rw [(cache.digest_spec 0).1, (cache.digest_spec 2).1, resolve_of_isLive (live 0 (by decide)),
      resolve_of_isLive (live 2 (by decide)), left.1, right.1]
  · simp only [List.forall_mem_cons]
    exact ⟨left.2, right.2, by simp⟩

theorem tangle_collisionFree (first second : String)
    (apart : ((returnTexts Sha256.hex first second).map Sha256.hex).Nodup) :
    CollisionFree Sha256.hex (runAll Sha256.hex .empty (tangle first second)) 0 2 := by
  obtain ⟨-, texts⟩ := tangle_digest Sha256.hex first second
  intro s memberS t memberT same
  rw [texts 0 (by decide)] at memberS
  rw [texts 2 (by decide)] at memberT
  exact List.inj_on_of_nodup_map apart memberS memberT same

/-- Chains that come back at different places, but to bisimilar nodes. -/
theorem bisimilar_iff_returns_alike_tangle :
    let g := runAll Sha256.hex .empty (tangle "next" "next")
    (HexDigest Sha256.hex ∧ Within Sha256.hex .empty (tangle "next" "next") ∧ AllPlain g ∧
      g.isLive 0 = true ∧ g.isLive 2 = true ∧ CollisionFree Sha256.hex g 0 2 ∧
      (g.digest Sha256.hex 0).1 = (g.digest Sha256.hex 2).1) ∧
    (Bisimilar g 0 2 ↔ ∀ trail x y, Lockstep g 0 2 trail x y → x ∈ trail.map Prod.fst →
      (x, y) ∈ trail ∨ Bisimilar g x y) := by
  intro g
  have within := tangle_within Sha256.hex "next" "next"
  have plain := tangle_plain Sha256.hex "next" "next"
  have left := tangle_live Sha256.hex "next" "next" 0 (by decide)
  have right := tangle_live Sha256.hex "next" "next" 2 (by decide)
  have free := tangle_collisionFree "next" "next" (by decide +kernel)
  have equal := (tangle_digest Sha256.hex "next" "next").1
  exact ⟨⟨hexDigest_sha256, within, plain, left, right, free, equal⟩,
    bisimilar_iff_returns_alike Sha256.hex hexDigest_sha256 _ within plain left right free equal⟩

theorem follows_link {g : Graph} {x y i j : NodeId} {name : String} {m n : Node}
    (foundX : g.nodes[x]? = some m) (foundY : g.nodes[y]? = some n)
    (shapeX : m.shape = .record [.link name i] []) (shapeY : n.shape = .record [.link name j] [])
    (liveI : g.isLive i = true) (liveJ : g.isLive j = true) : Follows g x y i j := by
  have next : Follows g x y (g.resolve i) (g.resolve j) := by
    refine .intro foundX foundY (p := .link name i) (q := .link name j) ?_ ?_ rfl rfl rfl
    · rw [shapeX]
      exact List.mem_singleton_self _
    · rw [shapeY]
      exact List.mem_singleton_self _
  rwa [resolve_of_isLive liveI, resolve_of_isLive liveJ] at next

theorem tangle_not_bisimilar (hash : Hash) {first second : String} (apart : first ≠ second) :
    ¬ Bisimilar (runAll hash .empty (tangle first second)) 0 2 := by
  intro start
  have live := tangle_live hash first second
  obtain ⟨m, foundM, shapeM⟩ := tangle_node hash first second 0 rfl
  obtain ⟨n, foundN, shapeN⟩ := tangle_node hash first second 1 rfl
  obtain ⟨s, foundS, shapeS⟩ := tangle_node hash first second 2 rfl
  obtain ⟨t, foundT, shapeT⟩ := tangle_node hash first second 3 rfl
  have there := start.similar.follows
    (follows_link foundM foundS shapeM shapeS (live 1 (by decide)) (live 3 (by decide)))
  have back := there.similar.follows
    (follows_link foundN foundT shapeN shapeT (live 0 (by decide)) (live 3 (by decide)))
  cases back.similar with
  | primitive found _ shape _ =>
    rw [foundM] at found
    cases found
    rw [shapeM] at shape
    cases shape
  | record foundX foundY shapeX shapeY outlines _ =>
    rw [foundM] at foundX
    rw [foundT] at foundY
    cases foundX
    cases foundY
    rw [shapeM] at shapeX
    rw [shapeT] at shapeY
    cases shapeX
    cases shapeY
    have same := (outlines (Property.link first 1).outline).mp (List.mem_singleton_self _)
    exact apart (congrArg Prod.fst (List.mem_singleton.mp same))

/-- Chains that come back at different places, and to nodes of different shape: the digests are
equal, but only one side has a chain of `first`, `second` and `first`. -/
theorem digest_eq_of_different_returns :
    let g := runAll Sha256.hex .empty (tangle "first" "second")
    HexDigest Sha256.hex ∧ Within Sha256.hex .empty (tangle "first" "second") ∧ AllPlain g ∧
      g.isLive 0 = true ∧ g.isLive 2 = true ∧ CollisionFree Sha256.hex g 0 2 ∧
      (g.digest Sha256.hex 0).1 = (g.digest Sha256.hex 2).1 ∧ ¬ Bisimilar g 0 2 :=
  ⟨hexDigest_sha256, tangle_within _ _ _, tangle_plain _ _ _, tangle_live _ _ _ 0 (by decide),
    tangle_live _ _ _ 2 (by decide), tangle_collisionFree _ _ (by decide +kernel),
    (tangle_digest _ _ _).1, tangle_not_bisimilar _ (by decide)⟩

end TypeLoom.Graph
