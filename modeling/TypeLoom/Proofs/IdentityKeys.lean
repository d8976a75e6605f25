import TypeLoom.Proofs.Growth
import TypeLoom.Proofs.Retention
import TypeLoom.Proofs.Survivors

/-! Identity keys of live nodes: whether they are unique and lead to their nodes. A node that is
appended or put in the place of another disturbs this exactly if a live node has its key already.
Registration looks a key up first, and merging retires the nodes whose keys it leads elsewhere, so
neither does any harm. -/
namespace TypeLoom.Graph

/-- The node is live and has this identity key. -/
def HasKey (g : Graph) (id : NodeId) (key : String) : Prop :=
  g.isLive id = true ∧ (g.nodes[id]?).map Node.key = some key

instance (g : Graph) (id : NodeId) (key : String) : Decidable (g.HasKey id key) :=
  inferInstanceAs (Decidable (_ ∧ _))

/-- No two live nodes have one key, and a live node is found by its key. -/
structure WellKeyed (g : Graph) : Prop where
  unique : ∀ {a b key}, g.HasKey a key → g.HasKey b key → a = b
  found : ∀ {id key}, g.HasKey id key → g.findByKey key = some id

theorem wellKeyed_of_found {g : Graph}
    (found : ∀ id key, g.HasKey id key → g.findByKey key = some id) : g.WellKeyed where
  unique first second := Option.some.inj ((found _ _ first).symm.trans (found _ _ second))
  found has := found _ _ has

theorem empty_wellKeyed : empty.WellKeyed :=
  wellKeyed_of_found fun id key has => by simp [HasKey, empty] at has

theorem WellKeyed.not_hasKey {g : Graph} (wellKeyed : g.WellKeyed) {key : String}
    (absent : g.keys.get? key = none) (id : NodeId) : ¬ g.HasKey id key := by
  intro has
  obtain ⟨entry, hit, -⟩ := Option.map_eq_some_iff.mp (wellKeyed.found has)
  rw [absent] at hit
  cases hit

theorem findByKey_later {g g' : Graph} (ext : Extends g g') (sound : g'.Sound) {id : NodeId}
    {key : String} (found : g.findByKey key = some id) (live : g'.isLive id = true)
    (same : g'.keys.get? key = g.keys.get? key) : g'.findByKey key = some id := by
  obtain ⟨entry, hit, rfl⟩ := Option.map_eq_some_iff.mp found
  rw [findByKey, same, hit, Option.map_some, ← ext.resolve_resolve sound, resolve_of_isLive live]

section congruence
variable {g g' : Graph} (nodes : g'.nodes.map Node.key = g.nodes.map Node.key)
  (redirects : g'.redirects = g.redirects)
include nodes redirects

theorem hasKey_congr (id : NodeId) (key : String) : g'.HasKey id key ↔ g.HasKey id key := by
  have size : g'.nodes.size = g.nodes.size := by simpa using congrArg Array.size nodes
  rw [HasKey, HasKey, ← Array.getElem?_map, nodes, Array.getElem?_map, isLive, isLive, size,
    redirects]

theorem wellKeyed_congr (keys : g'.keys = g.keys) : g'.WellKeyed ↔ g.WellKeyed := by
  have hasKey := hasKey_congr nodes redirects
  have findByKey (key : String) : g'.findByKey key = g.findByKey key := by
    have resolve : g'.resolve = g.resolve := by
      funext id
      rw [Graph.resolve, Graph.resolve, redirects]
    rw [Graph.findByKey, Graph.findByKey, keys, resolve]
  constructor
  · exact fun wellKeyed => wellKeyed_of_found fun id key has =>
      (findByKey key).symm.trans (wellKeyed.found ((hasKey id key).mpr has))
  · exact fun wellKeyed => wellKeyed_of_found fun id key has =>
      (findByKey key).trans (wellKeyed.found ((hasKey id key).mp has))

end congruence

theorem wellKeyed_withTables (g : Graph) (primitives : Table Primitive NodeId)
    (constants : Option NodeId) (unionBases : Table Nat NodeId) :
    WellKeyed { g with
      primitives := primitives, constants := constants, unionBases := unionBases } ↔ g.WellKeyed :=
  wellKeyed_congr rfl rfl rfl

/-- The same nodes are known as those of the primitive types and of the constants. -/
structure SameFixed (g g' : Graph) : Prop where
  primitives : g'.primitives = g.primitives
  constants : g'.constants = g.constants

theorem SameFixed.trans {g g' g'' : Graph} (first : SameFixed g g') (second : SameFixed g' g'') :
    SameFixed g g'' :=
  ⟨second.primitives.trans first.primitives, second.constants.trans first.constants⟩

/-- Neither the keys of nodes nor what they lead to have changed. -/
structure SameKeys (g g' : Graph) : Prop where
  nodes : g'.nodes.map Node.key = g.nodes.map Node.key
  redirects : g'.redirects = g.redirects
  keys : g'.keys = g.keys
  fixed : SameFixed g g'

namespace SameKeys
variable {g g' g'' : Graph}

theorem refl (g : Graph) : SameKeys g g := ⟨rfl, rfl, rfl, rfl, rfl⟩

theorem trans (first : SameKeys g g') (second : SameKeys g' g'') : SameKeys g g'' :=
  ⟨second.nodes.trans first.nodes, second.redirects.trans first.redirects,
    second.keys.trans first.keys, first.fixed.trans second.fixed⟩

theorem wellKeyed (same : SameKeys g g') (wellKeyed : g.WellKeyed) : g'.WellKeyed :=
  (wellKeyed_congr same.nodes same.redirects same.keys).mpr wellKeyed

end SameKeys

theorem modifyNode_sameKeys (g : Graph) (id : NodeId) {change : Node → Node}
    (kept : ∀ node, (change node).key = node.key) : SameKeys g (g.modifyNode id change) :=
  ⟨map_modifyNode g id kept, rfl, rfl, rfl, rfl⟩

theorem modifyShape_sameKeys (g : Graph) (id : NodeId) (f : Shape → Shape) :
    SameKeys g (g.modifyShape id f) := by
  have kept (node : Node) : ({ node with shape := f node.shape } : Node).key = node.key := rfl
  exact ⟨map_modifyNode g (g.resolve id) kept, rfl, rfl, rfl, rfl⟩

theorem freeName_sameKeys (g : Graph) (id : NodeId) (name : String) :
    SameKeys g (g.freeName id name) := by
  rw [freeName]
  split_ifs
  · exact ⟨rfl, rfl, rfl, rfl, rfl⟩
  · exact .refl g

theorem report_sameKeys (g : Graph) (kind : Finding.Kind) (subject message : String) :
    SameKeys g (g.report kind subject message) := ⟨rfl, rfl, rfl, rfl, rfl⟩

theorem findUnion_sameKeys (g : Graph) (member : String) (hint : Option String) :
    SameKeys g (g.findUnion member hint).2 := by
  rw [findUnion]
  dsimp only
  split
  · exact .refl g
  · exact .refl g
  · exact .refl g
  · exact report_sameKeys g _ _ _

theorem digest_sameKeys (hash : Hash) (g : Graph) (id : NodeId) :
    SameKeys g (g.digest hash id).2 := by
  obtain ⟨cache, frame⟩ := digest_frame hash g id
  rw [frame]
  exact ⟨rfl, rfl, rfl, rfl, rfl⟩

theorem identify_sameKeys {g g' : Graph} {node keyed : Node}
    (done : g.identify node = .ok (keyed, g')) : SameKeys g g' := by
  rw [identify] at done
  split at done
  · cases done
    exact .refl g
  · cases done
    exact .refl g
  · split_ifs at done
    split at done <;> cases done <;> exact ⟨rfl, rfl, rfl, rfl, rfl⟩

section push
variable {g : Graph} (sound : g.Sound)
include sound

theorem Sound.get?_size : g.redirects.get? g.nodes.size = none :=
  Option.eq_none_iff_forall_ne_some.mpr fun _ found => (SoundRedirects.source_lt sound found).false

theorem hasKey_push (node : Node) {id : NodeId} {key : String} :
    (g.push node).2.HasKey id key ↔ g.HasKey id key ∨ id = g.nodes.size ∧ node.key = key := by
  have free := sound.get?_size
  simp only [HasKey, isLive_iff, push_nodes, Array.size_push, Array.getElem?_push]
  have redirects : (g.push node).2.redirects = g.redirects := rfl
  rw [redirects]
  by_cases last : id = g.nodes.size
  · subst last
    simp [free]
  · rw [if_neg last]
    constructor
    · rintro ⟨⟨lt, live⟩, has⟩
      exact .inl ⟨⟨Nat.lt_of_le_of_ne (Nat.le_of_lt_succ lt) last, live⟩, has⟩
    · rintro (⟨⟨lt, live⟩, has⟩ | ⟨same, -⟩)
      · exact ⟨⟨Nat.lt_succ_of_lt lt, live⟩, has⟩
      · exact absurd same last

theorem push_wellKeyed_iff (wellKeyed : g.WellKeyed) (node : Node) :
    (g.push node).2.WellKeyed ↔ ∀ id, ¬ g.HasKey id node.key := by
  have new : (g.push node).2.HasKey g.nodes.size node.key :=
    (hasKey_push sound node).mpr (.inr ⟨rfl, rfl⟩)
  have soundLater : (g.push node).2.Sound := sound.mono (by simp [push, touch])
  have ext : Extends g (g.push node).2 := .of_redirects (by simp [push, touch]) rfl
  constructor
  · intro later id has
    have same := later.unique ((hasKey_push sound node).mpr (.inl has)) new
    exact ((isLive_iff g id).mp has.1).1.ne same
  · intro free
    refine wellKeyed_of_found fun id key has => ?_
    obtain old | ⟨rfl, rfl⟩ := (hasKey_push sound node).mp has
    · have other : key ≠ node.key := by
        rintro rfl
        exact free id old
      exact findByKey_later ext soundLater (wellKeyed.found old) has.1
        (Table.get?_insert_of_ne _ _ other)
    · have hit : (g.push node).2.keys.get? node.key = some g.nodes.size := Table.get?_insert_self ..
      rw [findByKey, hit, Option.map_some, resolve_of_isLive has.1]

end push

section supplant
variable {g : Graph} {old : NodeId} (live : g.isLive old = true) (node : Node)
include live

theorem supplant_tables : ∃ before, g.nodes[old]? = some before ∧
    (g.supplant old node).2.nodes = g.nodes.push node ∧
    (g.supplant old node).2.redirects = g.redirects.insert old g.nodes.size ∧
    (g.supplant old node).2.keys =
      (g.keys.insert node.key g.nodes.size).insert before.key g.nodes.size := by
  have lt := ((isLive_iff g old).mp live).1
  have found := Array.getElem?_eq_getElem lt
  refine ⟨_, found, ?_⟩
  have keys : (g.freeName old g.nodes[old].name).keys = g.keys := by
    rw [freeName]
    split_ifs <;> rfl
  rw [supplant, found]
  simp [push, touch, forgetDigests, keys]

theorem hasKey_supplant (sound : g.Sound) {id : NodeId} {key : String} :
    (g.supplant old node).2.HasKey id key ↔
      (g.HasKey id key ∧ id ≠ old) ∨ id = g.nodes.size ∧ node.key = key := by
  obtain ⟨before, found, nodes, redirects, -⟩ := supplant_tables live node
  have free := sound.get?_size
  have lt := ((isLive_iff g old).mp live).1
  simp only [HasKey, isLive_iff, nodes, redirects, Array.size_push, Array.getElem?_push,
    Table.get?_insert]
  by_cases last : id = g.nodes.size
  · subst last
    simp [free, lt.ne']
  · rw [if_neg last]
    by_cases replaced : id = old
    · simp [replaced, lt.ne]
    · rw [if_neg replaced]
      constructor
      · rintro ⟨⟨inside, live⟩, has⟩
        exact .inl ⟨⟨⟨Nat.lt_of_le_of_ne (Nat.le_of_lt_succ inside) last, live⟩, has⟩, replaced⟩
      · rintro (⟨⟨⟨inside, live⟩, has⟩, -⟩ | ⟨same, -⟩)
        · exact ⟨⟨Nat.lt_succ_of_lt inside, live⟩, has⟩
        · exact absurd same last

theorem supplant_wellKeyed_iff (sound : g.Sound) (wellKeyed : g.WellKeyed) :
    (g.supplant old node).2.WellKeyed ↔ ∀ id, id ≠ old → ¬ g.HasKey id node.key := by
  have new : (g.supplant old node).2.HasKey g.nodes.size node.key :=
    (hasKey_supplant live node sound).mpr (.inr ⟨rfl, rfl⟩)
  have soundLater := (supplant_keeps (fun _ => "") g old node).sound sound
  have ext := supplant_extends ((isLive_iff g old).mp live).2 node
  obtain ⟨before, found, -, -, keys⟩ := supplant_tables live node
  have own : g.HasKey old before.key := ⟨live, by rw [found, Option.map_some]⟩
  constructor
  · intro later id ne has
    have same := later.unique ((hasKey_supplant live node sound).mpr (.inl ⟨has, ne⟩)) new
    exact ((isLive_iff g id).mp has.1).1.ne same
  · intro free
    refine wellKeyed_of_found fun id key has => ?_
    obtain ⟨still, ne⟩ | ⟨rfl, rfl⟩ := (hasKey_supplant live node sound).mp has
    · have other : key ≠ node.key := by
        rintro rfl
        exact free id ne still
      have another : key ≠ before.key := by
        rintro rfl
        exact ne (wellKeyed.unique still own)
      refine findByKey_later ext soundLater (wellKeyed.found still) has.1 ?_
      rw [keys, Table.get?_insert_of_ne _ _ another, Table.get?_insert_of_ne _ _ other]
    · have hit : (g.supplant old node).2.keys.get? node.key = some g.nodes.size := by
        rw [keys, Table.get?_insert, Table.get?_insert_self, ite_self]
      rw [findByKey, hit, Option.map_some, resolve_of_isLive has.1]

end supplant

theorem settle_wellKeyed {g : Graph} (sound : g.Sound) (wellKeyed : g.WellKeyed) (steps : Nat)
    {node : Node} (absent : g.keys.get? node.key = none) : (settle steps g node).2.WellKeyed := by
  induction steps generalizing g node with
  | zero => exact (push_wellKeyed_iff sound wellKeyed node).mpr (wellKeyed.not_hasKey absent)
  | succ steps ih =>
    rw [settle]
    cases taken : g.liveByName node.name with
    | none => exact (push_wellKeyed_iff sound wellKeyed node).mpr (wellKeyed.not_hasKey absent)
    | some other =>
      obtain ⟨-, live, before, found, -⟩ := liveByName_eq_some_iff.mp taken
      dsimp only
      rw [found]
      dsimp only
      split_ifs with union better
      · exact (supplant_wellKeyed_iff live node sound wellKeyed).mpr
          fun id _ => wellKeyed.not_hasKey absent id
      · -- The key becomes one more of a node that is there.
        have ext : Extends g { g with keys := g.keys.insert node.key other } :=
          .of_redirects le_rfl rfl
        refine wellKeyed_of_found fun id key has => ?_
        have ne : key ≠ node.key := by
          rintro rfl
          exact wellKeyed.not_hasKey absent id has
        exact findByKey_later ext sound (wellKeyed.found has) has.1 (Table.get?_insert_of_ne _ _ ne)
      · refine ih ?_ ?_ ?_
        · exact sound
        · exact (report_sameKeys g _ _ _).wellKeyed wellKeyed
        · exact absent

theorem register_wellKeyed {g g' : Graph} (sound : g.Sound) (wellKeyed : g.WellKeyed) {node : Node}
    {id : NodeId} (done : g.register node = .ok (id, g')) : g'.WellKeyed := by
  obtain ⟨⟨keyed, g₁⟩, identified, done⟩ := ok_of_bind done
  have wellKeyed₁ := (identify_sameKeys identified).wellKeyed wellKeyed
  have sound₁ := (identify_spec identified).2.toSameShapes.sound sound
  dsimp only at done
  split at done
  · cases done
    exact wellKeyed₁
  · rename_i absent
    split_ifs at done
    · cases done
      exact (push_wellKeyed_iff sound₁ wellKeyed₁ keyed).mpr (wellKeyed₁.not_hasKey absent)
    · have settled := settle_wellKeyed sound₁ wellKeyed₁ (g₁.names.size + 1) absent
      rwa [Except.ok.inj done] at settled

/-- Keys of nodes stay, and only keys of the nodes `ids` that have been retired lead elsewhere. -/
structure Rekeys (g : Graph) (ids : List NodeId) (g' : Graph) : Prop where
  nodes : g'.nodes.map Node.key = g.nodes.map Node.key
  retired : ∀ id, g.redirects.contains id = true → g'.redirects.contains id = true
  keys : ∀ key, g'.keys.get? key = g.keys.get? key ∨ ∃ loser ∈ ids,
    g'.redirects.contains loser = true ∧ (g.nodes[loser]?).map Node.key = some key
  fixed : SameFixed g g'

namespace Rekeys
variable {g g' g'' : Graph} {ids others : List NodeId}

theorem of_same (same : SameKeys g g') (ids : List NodeId) : Rekeys g ids g' :=
  ⟨same.nodes, fun _ retired => same.redirects ▸ retired, fun _ => .inl (by rw [same.keys]),
    same.fixed⟩

theorem mono (rekeys : Rekeys g ids g') (subset : ids ⊆ others) : Rekeys g others g' where
  nodes := rekeys.nodes
  retired := rekeys.retired
  keys key := by
    refine (rekeys.keys key).imp_right fun changed => ?_
    obtain ⟨loser, mem, retired, has⟩ := changed
    exact ⟨loser, subset mem, retired, has⟩
  fixed := rekeys.fixed

theorem trans (first : Rekeys g ids g') (second : Rekeys g' others g'') :
    Rekeys g (ids ++ others) g'' where
  nodes := second.nodes.trans first.nodes
  retired id retired := second.retired id (first.retired id retired)
  keys key := by
    rcases second.keys key with same | ⟨loser, mem, retired, has⟩
    · rw [same]
      refine (first.keys key).imp_right fun changed => ?_
      obtain ⟨loser, mem, retired, has⟩ := changed
      exact ⟨loser, List.mem_append_left _ mem, second.retired loser retired, has⟩
    · refine .inr ⟨loser, List.mem_append_right _ mem, retired, ?_⟩
      rw [← has, ← Array.getElem?_map, ← Array.getElem?_map, first.nodes]
  fixed := first.fixed.trans second.fixed

theorem wellKeyed (rekeys : Rekeys g ids g') (ext : Extends g g') (sound : g'.Sound)
    (live : ∀ id ∈ ids, g.isLive id = true) (wellKeyed : g.WellKeyed) : g'.WellKeyed := by
  refine wellKeyed_of_found fun id key has => ?_
  have size : g'.nodes.size = g.nodes.size := by simpa using congrArg Array.size rekeys.nodes
  have before : g.HasKey id key := by
    refine ⟨ext.isLive_earlier size has.1, ?_⟩
    rw [← has.2, ← Array.getElem?_map, ← Array.getElem?_map, rekeys.nodes]
  rcases rekeys.keys key with same | ⟨loser, mem, retired, hasLoser⟩
  · exact findByKey_later ext sound (wellKeyed.found before) has.1 same
  · have gone : id = loser := wellKeyed.unique before ⟨live loser mem, hasLoser⟩
    have still := has.1
    rw [gone, isLive, retired] at still
    simp at still

end Rekeys

theorem key_lasting : Lasting Node.key := ⟨fun _ _ => rfl, fun _ _ => rfl⟩

theorem absorb_rekeys (g : Graph) (survivor loser : NodeId) :
    Rekeys g [loser] (g.absorb survivor loser) := by
  rw [absorb]
  cases found : g.nodes[loser]? with
  | none => exact .of_same (.refl g) _
  | some lost =>
    dsimp only
    generalize changed : g.modifyNode survivor _ = g₁
    have first : SameKeys g g₁ := changed ▸ modifyNode_sameKeys g survivor fun _ => rfl
    have same := first.trans (freeName_sameKeys g₁ loser lost.name)
    refine ⟨same.nodes, fun id retired => ?_, fun key => ?_, same.fixed.primitives,
      same.fixed.constants⟩
    · rw [contains_insert, same.redirects]
      exact .inr retired
    · by_cases own : key = lost.key
      · refine .inr ⟨loser, List.mem_singleton_self loser, ?_, ?_⟩
        · exact (contains_insert _ _ _ _).mpr (.inl rfl)
        · rw [found, own, Option.map_some]
      · refine .inl ((Table.get?_insert_of_ne _ _ own).trans ?_)
        rw [same.keys]

theorem mergeBucket_rekeys (g : Graph) (ids : List NodeId) :
    Rekeys g ids (g.mergeBucket ids).2 := by
  have absorbed (survivor : NodeId) (losers : List NodeId) (g : Graph) :
      Rekeys g losers (losers.foldl (fun g loser => g.absorb survivor loser) g) := by
    induction losers generalizing g with
    | nil => exact .of_same (.refl g) _
    | cons loser rest ih => exact (absorb_rekeys g survivor loser).trans (ih _)
  have perm : (g.byScore ids).Perm ids := List.mergeSort_perm _ _
  rw [mergeBucket]
  cases sorted : g.byScore ids with
  | nil => exact .of_same (.refl g) ids
  | cons survivor losers =>
    rw [sorted] at perm
    exact (absorbed survivor losers g).mono
      fun id mem => perm.mem_iff.mp (List.mem_cons_of_mem survivor mem)

theorem mergeBuckets_rekeys (g : Graph) (groups : List (List NodeId)) :
    Rekeys g groups.flatten (mergeBuckets g groups).2 := by
  induction groups generalizing g with
  | nil => exact .of_same (.refl g) _
  | cons ids rest ih => exact (mergeBucket_rekeys g ids).trans (ih _)

theorem canonicalize_sameKeys (g : Graph) : SameKeys g g.canonicalize :=
  ⟨canonicalize_map key_lasting g, rfl, rfl, rfl, rfl⟩

theorem compared_sameKeys (hash : Hash) (g : Graph) : SameKeys g (compared hash g) := by
  obtain ⟨cache, frame⟩ := compared_frame hash g
  rw [frame]
  exact ⟨canonicalize_map key_lasting g.forgetDigests, rfl, rfl, rfl, rfl⟩

theorem mergePass_wellKeyed {hash : Hash} {g : Graph} (sound : g.Sound) (wellKeyed : g.WellKeyed) :
    (g.mergePass hash).2.WellKeyed := by
  have retires := mergeBuckets_groups hash sound
  have live : ∀ id ∈ (groups hash g).flatten, (compared hash g).isLive id = true :=
    fun _ => isLive_of_mem_groups
  have merged := (mergeBuckets_rekeys (compared hash g) (groups hash g)).wellKeyed
    (.of_retires retires live) retires.sound live ((compared_sameKeys hash g).wellKeyed wellKeyed)
  rw [mergePass_eq]
  dsimp only
  split_ifs
  · exact merged
  · exact (canonicalize_sameKeys _).wellKeyed merged

theorem Passes.wellKeyed {hash : Hash} {g g' : Graph} {count : Nat}
    (passes : Passes hash g count g')
    (sound : g.Sound) (wellKeyed : g.WellKeyed) : g'.WellKeyed := by
  induction passes with
  | last none => exact mergePass_wellKeyed sound wellKeyed
  | more some rest ih =>
    exact ih (mergePass_shrinks hash sound).sound (mergePass_wellKeyed sound wellKeyed)

theorem recordEdges_sameKeys (g : Graph) : SameKeys g g.recordEdges := ⟨rfl, rfl, rfl, rfl, rfl⟩

theorem consolidate_wellKeyed {hash : Hash} {g : Graph} (sound : g.Sound)
    (wellKeyed : g.WellKeyed) : (g.consolidate hash).2.WellKeyed := by
  obtain ⟨before, -, -, passes, result⟩ := consolidate_last hash sound
  rw [result]
  exact (recordEdges_sameKeys _).wellKeyed (passes.wellKeyed sound wellKeyed)

theorem rename_sameKeys (g : Graph) (id : NodeId) (name : String) :
    SameKeys g (g.rename id name) := by
  rw [rename]
  cases g.nodes[id]? with
  | none => exact .refl g
  | some node =>
    dsimp only
    generalize changed : g.modifyNode id _ = g₁
    have first : SameKeys g g₁ := changed ▸ modifyNode_sameKeys g id fun _ => rfl
    have same := first.trans (freeName_sameKeys g₁ id node.name)
    exact ⟨same.nodes, same.redirects, same.keys, same.fixed.primitives, same.fixed.constants⟩

theorem restoreNames_sameKeys (g : Graph) (taken : List String) (ids : List NodeId) :
    SameKeys g (restoreNames g taken ids) := by
  induction ids generalizing g taken with
  | nil => exact .refl g
  | cons id rest ih =>
    rw [restoreNames]
    cases g.nodes[id]? with
    | none => exact ih g taken
    | some node =>
      dsimp only
      cases node.formerName with
      | none => exact ih g taken
      | some former =>
        dsimp only
        split_ifs
        · exact ih g taken
        · refine SameKeys.trans ?_ (ih _ _)
          exact (rename_sameKeys g id former).trans (modifyNode_sameKeys _ id fun _ => rfl)

theorem markDescendants_sameKeys (g : Graph) (retained : List NodeId) :
    SameKeys g (g.markDescendants retained) := by
  rw [markDescendants]
  generalize retained.flatMap g.outgoing = ids
  induction ids generalizing g with
  | nil => exact .refl g
  | cons id rest ih =>
    refine SameKeys.trans ?_ (ih _)
    exact modifyNode_sameKeys g id fun _ => rfl

theorem prune_sameKeys (g : Graph) : SameKeys g g.prune.2 := by
  have descendants := (recordEdges_sameKeys g).trans
    (markDescendants_sameKeys _ g.recordEdges.reachable)
  have marked : SameKeys g g.marked := by
    rw [Graph.marked]
    exact ⟨descendants.nodes, descendants.redirects, descendants.keys,
      descendants.fixed.primitives, descendants.fixed.constants⟩
  rw [prune_eq]
  exact marked.trans (restoreNames_sameKeys _ _ _)

end TypeLoom.Graph
