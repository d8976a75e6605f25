import TypeLoom.Proofs.Permanence

/-! What becomes of a node in a consolidation. In every pass one node of a bucket stands for all of
them: it had the digest of every node it stands for, and it takes over what makes any of them part
of the output. Over all passes, what nodes of one digest have in common is common to a node and to
the one that stands for it, and the shape of a live node is the one it had, with its references
resolved. -/
namespace TypeLoom.Graph

/-! ### Nodes of one bucket -/

theorem addToBucket_cases {digest own : String} {id : NodeId} {ids : List NodeId}
    {groups : List (String × List NodeId)} (member : (own, ids) ∈ addToBucket digest id groups) :
    (own, ids) ∈ groups ∨ own = digest ∧
      (ids = [id] ∨ ∃ before, (own, before) ∈ groups ∧ ids = before ++ [id]) := by
  induction groups with
  | nil =>
    rw [addToBucket, List.mem_singleton] at member
    cases member
    exact .inr ⟨rfl, .inl rfl⟩
  | cons group rest ih =>
    obtain ⟨other, those⟩ := group
    rw [addToBucket] at member
    split_ifs at member with same
    · rcases List.mem_cons.mp member with here | later
      · obtain ⟨rfl, rfl⟩ := Prod.mk.inj here
        exact .inr ⟨same, .inr ⟨those, List.mem_cons_self, rfl⟩⟩
      · exact .inl (List.mem_cons_of_mem _ later)
    · rcases List.mem_cons.mp member with here | later
      · exact .inl (here ▸ List.mem_cons_self)
      · rcases ih later with old | ⟨key, alone | ⟨before, mem, rfl⟩⟩
        · exact .inl (List.mem_cons_of_mem _ old)
        · exact .inr ⟨key, .inl alone⟩
        · exact .inr ⟨key, .inr ⟨before, List.mem_cons_of_mem _ mem, rfl⟩⟩

theorem mem_addToBucket {digest own : String} {id x : NodeId} {ids : List NodeId}
    {groups : List (String × List NodeId)} (member : (own, ids) ∈ addToBucket digest id groups)
    (inside : x ∈ ids) :
    (x, own) = (id, digest) ∨ ∃ before, (own, before) ∈ groups ∧ x ∈ before := by
  rcases addToBucket_cases member with old | ⟨rfl, rfl | ⟨before, mem, rfl⟩⟩
  · exact .inr ⟨ids, old, inside⟩
  · exact .inl (by rw [List.mem_singleton.mp inside])
  · rcases List.mem_append.mp inside with there | new
    · exact .inr ⟨before, mem, there⟩
    · exact .inl (by rw [List.mem_singleton.mp new])

theorem digest_of_mem_buckets {digests : List (NodeId × String)} {ids : List NodeId}
    (bucket : ids ∈ buckets digests) : ∃ digest, ∀ id ∈ ids, (id, digest) ∈ digests := by
  have general : ∀ (groups : List (String × List NodeId)) (own : String) (ids : List NodeId),
      (own, ids) ∈ digests.foldl (fun groups entry => addToBucket entry.2 entry.1 groups) groups →
      ∀ x ∈ ids, (x, own) ∈ digests ∨ ∃ before, (own, before) ∈ groups ∧ x ∈ before := by
    clear bucket
    induction digests with
    | nil => exact fun groups own ids member x inside => .inr ⟨ids, member, inside⟩
    | cons entry rest ih =>
      intro groups own ids member x inside
      rcases ih _ own ids member x inside with later | ⟨before, mem, there⟩
      · exact .inl (List.mem_cons_of_mem _ later)
      · rcases mem_addToBucket mem there with here | old
        · exact .inl (here ▸ List.mem_cons_self)
        · exact .inr old
  obtain ⟨⟨own, _⟩, member, rfl⟩ := List.mem_map.mp bucket
  refine ⟨own, fun id inside => ?_⟩
  rcases general [] own _ member id inside with found | ⟨before, none, -⟩
  · exact found
  · cases none

theorem pairwise_of_mem_buckets {digests : List (NodeId × String)}
    (ordered : (digests.map Prod.fst).Pairwise (· < ·)) {ids : List NodeId}
    (bucket : ids ∈ buckets digests) : ids.Pairwise (· < ·) := by
  -- Along the fold every bucket is ascending and all that is still to come is above it.
  have general : ∀ groups : List (String × List NodeId),
      (∀ group ∈ groups, group.2.Pairwise (· < ·) ∧
        ∀ x ∈ group.2, ∀ entry ∈ digests, x < entry.1) →
      ∀ group ∈ digests.foldl (fun groups entry => addToBucket entry.2 entry.1 groups) groups,
        group.2.Pairwise (· < ·) := by
    clear bucket
    induction digests with
    | nil => exact fun groups all group member => (all group member).1
    | cons entry rest ih =>
      rw [List.map_cons, List.pairwise_cons] at ordered
      intro groups all
      refine ih ordered.2 _ ?_
      have above : ∀ other ∈ rest, entry.1 < other.1 := fun other later =>
        ordered.1 other.1 (List.mem_map_of_mem later)
      rintro ⟨own, ids⟩ member
      rcases addToBucket_cases member with old | ⟨-, rfl | ⟨before, mem, rfl⟩⟩
      · exact ⟨(all _ old).1, fun x inside other later =>
          (all _ old).2 x inside other (List.mem_cons_of_mem _ later)⟩
      · refine ⟨List.pairwise_singleton _ _, fun x inside => ?_⟩
        rw [List.mem_singleton.mp inside]
        exact above
      · obtain ⟨ascending, below⟩ := all _ mem
        refine ⟨List.pairwise_append.mpr ⟨ascending, List.pairwise_singleton _ _, ?_⟩,
          fun x inside other later => ?_⟩
        · intro x inside y single
          rw [List.mem_singleton.mp single]
          exact below x inside entry List.mem_cons_self
        · rcases List.mem_append.mp inside with there | new
          · exact below x there other (List.mem_cons_of_mem _ later)
          · rw [List.mem_singleton.mp new]
            exact above other later
  obtain ⟨group, member, rfl⟩ := List.mem_map.mp bucket
  exact general [] (fun group none => by cases none) group member

/-! ### The survivor of a bucket -/

/-- Of the nodes that are alike this one has the highest score, and is the first that has it. -/
structure Leads (g : Graph) (alike : NodeId → Prop) (survivor : NodeId) : Prop where
  mem : alike survivor
  highest : ∀ id, alike id → g.scoreOf id ≤ g.scoreOf survivor
  first : ∀ id, alike id → g.scoreOf id = g.scoreOf survivor → survivor ≤ id

theorem Leads.congr {g g' : Graph} {alike : NodeId → Prop} {survivor : NodeId}
    (leads : Leads g alike survivor) (same : ∀ id, alike id → g'.scoreOf id = g.scoreOf id) :
    Leads g' alike survivor where
  mem := leads.mem
  highest id member := by
    rw [same id member, same survivor leads.mem]
    exact leads.highest id member
  first id member equal := by
    rw [same id member, same survivor leads.mem] at equal
    exact leads.first id member equal

theorem pair_sublist_of_lt {ids : List NodeId} (ordered : ids.Pairwise (· < ·)) {a b : NodeId}
    (memA : a ∈ ids) (memB : b ∈ ids) (lt : a < b) : [a, b].Sublist ids := by
  obtain ⟨before, after, rfl⟩ := List.append_of_mem memA
  obtain ⟨-, -, apart⟩ := List.pairwise_append.mp ordered
  have later : b ∈ after := by
    rcases List.mem_append.mp memB with early | late
    · exact absurd (apart b early a List.mem_cons_self) (Nat.lt_asymm lt)
    · exact (List.mem_cons.mp late).resolve_left (Nat.ne_of_gt lt)
  exact ((List.singleton_sublist.mpr later).cons_cons a).trans (List.sublist_append_right before _)

/-- What comes first by score leads, since nodes of equal score keep their order. -/
theorem leads_of_byScore {g : Graph} {ids losers : List NodeId} {survivor : NodeId}
    (ordered : ids.Pairwise (· < ·)) (sorted : g.byScore ids = survivor :: losers) :
    Leads g (· ∈ ids) survivor := by
  have perm : (g.byScore ids).Perm ids := List.mergeSort_perm _ _
  have nodup : (survivor :: losers).Nodup :=
    sorted ▸ perm.nodup_iff.mpr (ordered.imp Nat.ne_of_lt)
  have total : ∀ a b : NodeId,
      (decide (g.scoreOf b ≤ g.scoreOf a) || decide (g.scoreOf a ≤ g.scoreOf b)) = true := by
    intro a b
    simp only [Bool.or_eq_true, decide_eq_true_eq]
    exact Int.le_total _ _
  have trans : ∀ a b c : NodeId, decide (g.scoreOf b ≤ g.scoreOf a) = true →
      decide (g.scoreOf c ≤ g.scoreOf b) = true → decide (g.scoreOf c ≤ g.scoreOf a) = true := by
    intro a b c first second
    rw [decide_eq_true_eq] at first second ⊢
    exact Int.le_trans second first
  have mem : survivor ∈ ids := perm.mem_iff.mp (sorted ▸ List.mem_cons_self)
  have pairwise := List.pairwise_mergeSort trans total ids
  rw [← byScore, sorted, List.pairwise_cons] at pairwise
  refine ⟨mem, fun id member => ?_, fun id member equal => ?_⟩
  · rw [← perm.mem_iff, sorted] at member
    rcases List.mem_cons.mp member with rfl | later
    · exact Int.le_refl _
    · exact of_decide_eq_true (pairwise.1 id later)
  · by_contra early
    have lt : id < survivor := Nat.lt_of_not_le early
    have kept := List.pair_sublist_mergeSort trans total
      (decide_eq_true (Int.le_of_eq equal.symm)) (pair_sublist_of_lt ordered member mem lt)
    rw [← byScore, sorted] at kept
    obtain ⟨fresh, -⟩ := List.nodup_cons.mp nodup
    cases kept with
    | cons _ both => exact fresh (both.subset (by simp))
    | cons_cons _ _ => exact Nat.lt_irrefl _ lt

/-- What makes a node with the flags `a` part of the output is there in `b`, and so is a name of its
own. -/
structure Flags.Under (a b : Flags) : Prop where
  isPublic : a.isPublic = true → b.isPublic = true
  rendered : a.rendered = true → b.rendered = true
  anonymous : b.anonymous = true → a.anonymous = true

theorem Flags.Under.refl (a : Flags) : a.Under a := ⟨id, id, id⟩

theorem Flags.Under.trans {a b c : Flags} (first : a.Under b) (second : b.Under c) : a.Under c :=
  ⟨second.isPublic ∘ first.isPublic, second.rendered ∘ first.rendered,
    first.anonymous ∘ second.anonymous⟩

def flags? (g : Graph) (id : NodeId) : Option Flags := (g.nodes[id]?).map Node.flags

/-- What makes the node `a` of `g` part of the output is there in the node `b` of `g'`. -/
def Inherits (g : Graph) (a : NodeId) (g' : Graph) (b : NodeId) : Prop :=
  ∀ flags, g.flags? a = some flags → ∃ kept, g'.flags? b = some kept ∧ flags.Under kept

theorem Inherits.of_flags {g g' : Graph} {a : NodeId} (same : g'.flags? a = g.flags? a) :
    Inherits g a g' a :=
  fun flags found => ⟨flags, same.trans found, .refl flags⟩

theorem Inherits.trans {g g' g'' : Graph} {a b c : NodeId} (first : Inherits g a g' b)
    (second : Inherits g' b g'' c) : Inherits g a g'' c := by
  intro flags found
  obtain ⟨kept, there, under⟩ := first flags found
  obtain ⟨last, here, wider⟩ := second kept there
  exact ⟨last, here, under.trans wider⟩

theorem Inherits.node {g g' : Graph} {a b : NodeId} (inherits : Inherits g a g' b) {node : Node}
    (found : g.nodes[a]? = some node) :
    ∃ kept, g'.nodes[b]? = some kept ∧ node.flags.Under kept.flags := by
  obtain ⟨flags, there, under⟩ := inherits node.flags (by rw [flags?, found, Option.map_some])
  obtain ⟨kept, isKept, rfl⟩ := Option.map_eq_some_iff.mp there
  exact ⟨kept, isKept, under⟩

/-- The nodes `ids` of `g` are one in `g'`, where `survivor` stands for them. -/
structure Unites (g : Graph) (ids : List NodeId) (survivor : NodeId) (g' : Graph) : Prop where
  mem : survivor ∈ ids
  last : g'.redirects.get? survivor = none
  redirected : ∀ id ∈ ids, id ≠ survivor → g'.Redirected id survivor
  inherits : ∀ id ∈ ids, Inherits g id g' survivor

/-- Nothing has changed but for the nodes `ids`. -/
structure Elsewhere (g : Graph) (ids : List NodeId) (g' : Graph) : Prop where
  nodes : ∀ id ∉ ids, g'.nodes[id]? = g.nodes[id]?
  redirects : ∀ id ∉ ids, g'.redirects.get? id = g.redirects.get? id

namespace Elsewhere
variable {g g' g'' : Graph} {ids others : List NodeId}

theorem trans (first : Elsewhere g ids g') (second : Elsewhere g' others g'') :
    Elsewhere g (ids ++ others) g'' where
  nodes id absent := by
    rw [List.mem_append, not_or] at absent
    rw [second.nodes id absent.2, first.nodes id absent.1]
  redirects id absent := by
    rw [List.mem_append, not_or] at absent
    rw [second.redirects id absent.2, first.redirects id absent.1]

theorem flags (elsewhere : Elsewhere g ids g') {id : NodeId} (absent : id ∉ ids) :
    g'.flags? id = g.flags? id := by
  rw [flags?, flags?, elsewhere.nodes id absent]

theorem scoreOf (elsewhere : Elsewhere g ids g') {id : NodeId} (absent : id ∉ ids) :
    g'.scoreOf id = g.scoreOf id := by
  rw [Graph.scoreOf, Graph.scoreOf, elsewhere.nodes id absent]

end Elsewhere

section absorb
variable {g : Graph} (survivor : NodeId) {loser : NodeId} {lost : Node}

theorem absorb_redirects (found : g.nodes[loser]? = some lost) :
    (g.absorb survivor loser).redirects = g.redirects.insert loser survivor := by
  simp [absorb, found, modifyNode]

theorem absorb_flags (found : g.nodes[loser]? = some lost) (id : NodeId) :
    (g.absorb survivor loser).flags? id = if survivor = id then
      (g.flags? id).map fun flags => { flags with
        rendered := flags.rendered || lost.flags.rendered
        isPublic := flags.isPublic || lost.flags.isPublic
        anonymous := flags.anonymous && lost.flags.anonymous }
      else g.flags? id := by
  simp only [flags?, absorb, found, freeName_nodes, modifyNode, Array.getElem?_modify]
  split_ifs
  · rw [Option.map_map, Option.map_map]
    rfl
  · rfl

theorem absorb_elsewhere (found : g.nodes[loser]? = some lost) :
    Elsewhere g [survivor, loser] (g.absorb survivor loser) where
  nodes id absent := by
    simp only [absorb, found, freeName_nodes, modifyNode, Array.getElem?_modify]
    rw [if_neg]
    rintro rfl
    exact absent List.mem_cons_self
  redirects id absent := by
    rw [absorb_redirects survivor found, Table.get?_insert_of_ne]
    rintro rfl
    exact absent (by simp)

variable {survivor} in
theorem absorb_unites (there : survivor < g.nodes.size) (last : g.redirects.get? survivor = none)
    (found : g.nodes[loser]? = some lost) (ne : survivor ≠ loser) :
    Unites g [survivor, loser] survivor (g.absorb survivor loser) := by
  have redirects := absorb_redirects survivor found
  obtain ⟨node, atSurvivor⟩ : ∃ node, g.nodes[survivor]? = some node :=
    ⟨_, Array.getElem?_eq_getElem there⟩
  have kept := absorb_flags survivor found survivor
  rw [if_pos rfl, flags?.eq_def g, atSurvivor, Option.map_some, Option.map_some] at kept
  refine ⟨List.mem_cons_self, ?_, ?_, ?_⟩
  · rw [redirects, Table.get?_insert_of_ne _ _ ne, last]
  · intro id member different
    obtain rfl : id = loser := by simpa [different] using member
    rw [Redirected, redirects, Table.get?_insert_self]
  · intro id member flags isFlags
    rcases List.mem_cons.mp member with rfl | other
    · rw [flags?, atSurvivor] at isFlags
      cases isFlags
      refine ⟨_, kept, fun isPublic => ?_, fun rendered => ?_, fun anonymous => ?_⟩
      · simp [isPublic]
      · simp [rendered]
      · exact (Bool.and_eq_true_iff.mp anonymous).1
    · rw [List.mem_singleton.mp other, flags?, found] at isFlags
      cases isFlags
      refine ⟨_, kept, fun isPublic => ?_, fun rendered => ?_, fun anonymous => ?_⟩
      · simp [isPublic]
      · simp [rendered]
      · exact (Bool.and_eq_true_iff.mp anonymous).2

end absorb

theorem foldl_absorb_unites {g : Graph} {survivor : NodeId} {losers : List NodeId}
    (there : survivor < g.nodes.size) (last : g.redirects.get? survivor = none)
    (inside : ∀ id ∈ losers, id < g.nodes.size) (nodup : (survivor :: losers).Nodup) :
    Unites g (survivor :: losers) survivor
        (losers.foldl (fun g loser => g.absorb survivor loser) g) ∧
      Elsewhere g (survivor :: losers)
        (losers.foldl (fun g loser => g.absorb survivor loser) g) := by
  induction losers generalizing g with
  | nil =>
    refine ⟨⟨List.mem_cons_self, last, fun id member different => ?_, fun id member => ?_⟩,
      fun _ _ => rfl, fun _ _ => rfl⟩
    · exact absurd (List.mem_singleton.mp member) different
    · rw [List.mem_singleton.mp member]
      exact .of_flags rfl
  | cons loser rest ih =>
    obtain ⟨notMem, nodupRest⟩ := List.nodup_cons.mp nodup
    obtain ⟨fresh, distinct⟩ := List.nodup_cons.mp nodupRest
    have ne : survivor ≠ loser := fun same => notMem (same ▸ List.mem_cons_self)
    obtain ⟨lost, found⟩ : ∃ lost, g.nodes[loser]? = some lost :=
      ⟨_, Array.getElem?_eq_getElem (inside loser List.mem_cons_self)⟩
    have size : (g.absorb survivor loser).nodes.size = g.nodes.size := by
      simp [absorb, found, modifyNode]
    have joins := absorb_unites there last found ne
    have elsewhere := absorb_elsewhere survivor found
    obtain ⟨joinsRest, elsewhereRest⟩ := ih (size ▸ there) joins.last
      (fun id member => size ▸ inside id (List.mem_cons_of_mem _ member))
      (List.nodup_cons.mpr ⟨fun member => notMem (List.mem_cons_of_mem _ member), distinct⟩)
    have outside : loser ∉ survivor :: rest := by
      rw [List.mem_cons, not_or]
      exact ⟨ne.symm, fresh⟩
    refine ⟨⟨List.mem_cons_self, joinsRest.last, fun id member different => ?_,
      fun id member => ?_⟩, fun id absent => ?_, fun id absent => ?_⟩
    · rcases List.mem_cons.mp member with same | later
      · exact absurd same different
      · rcases List.mem_cons.mp later with rfl | later
        · rw [List.foldl_cons, Redirected, elsewhereRest.redirects id outside]
          exact joins.redirected id (by simp) different
        · exact joinsRest.redirected id (List.mem_cons_of_mem _ later) different
    · have survives := joinsRest.inherits survivor List.mem_cons_self
      rcases List.mem_cons.mp member with rfl | later
      · exact (joins.inherits id List.mem_cons_self).trans survives
      · rcases List.mem_cons.mp later with rfl | later
        · exact (joins.inherits id (by simp)).trans survives
        · refine Inherits.trans (.of_flags (elsewhere.flags ?_))
            (joinsRest.inherits id (List.mem_cons_of_mem _ later))
          rintro (_ | ⟨_, _ | ⟨_, none⟩⟩)
          · exact notMem (List.mem_cons_of_mem _ later)
          · exact fresh later
          · cases none
    · simp only [List.mem_cons, not_or] at absent
      rw [List.foldl_cons, elsewhereRest.nodes id (by simp [absent]),
        elsewhere.nodes id (by simp [absent])]
    · simp only [List.mem_cons, not_or] at absent
      rw [List.foldl_cons, elsewhereRest.redirects id (by simp [absent]),
        elsewhere.redirects id (by simp [absent])]

theorem Unites.of_perm {g g' : Graph} {ids others : List NodeId} {survivor : NodeId}
    (joins : Unites g ids survivor g') (perm : ids.Perm others) : Unites g others survivor g' where
  mem := perm.mem_iff.mp joins.mem
  last := joins.last
  redirected id member := joins.redirected id (perm.mem_iff.mpr member)
  inherits id member := joins.inherits id (perm.mem_iff.mpr member)

theorem mergeBucket_unites {g : Graph} {ids : List NodeId} (ordered : ids.Pairwise (· < ·))
    (live : ∀ id ∈ ids, g.isLive id = true) :
    (ids ≠ [] → ∃ survivor, Leads g (· ∈ ids) survivor ∧
      Unites g ids survivor (g.mergeBucket ids).2) ∧ Elsewhere g ids (g.mergeBucket ids).2 := by
  have perm : (g.byScore ids).Perm ids := List.mergeSort_perm _ _
  rw [mergeBucket]
  cases sorted : g.byScore ids with
  | nil =>
    rw [sorted] at perm
    exact ⟨fun some => absurd perm.symm.eq_nil some, fun _ _ => rfl, fun _ _ => rfl⟩
  | cons survivor losers =>
    rw [sorted] at perm
    have alive : ∀ id ∈ survivor :: losers, id < g.nodes.size ∧ g.redirects.get? id = none :=
      fun id member => (g.isLive_iff id).mp (live id (perm.mem_iff.mp member))
    obtain ⟨here, later⟩ := List.forall_mem_cons.mp alive
    obtain ⟨joins, elsewhere⟩ := foldl_absorb_unites here.1 here.2
      (fun id member => (later id member).1) (perm.nodup_iff.mpr (ordered.imp Nat.ne_of_lt))
    refine ⟨fun _ => ⟨survivor, leads_of_byScore ordered sorted, joins.of_perm perm⟩,
      fun id absent => ?_, fun id absent => ?_⟩
    · exact elsewhere.nodes id fun member => absent (perm.mem_iff.mp member)
    · exact elsewhere.redirects id fun member => absent (perm.mem_iff.mp member)

theorem mergeBuckets_unites {g : Graph} (sound : g.Sound) {groups : List (List NodeId)}
    (ordered : ∀ ids ∈ groups, ids.Pairwise (· < ·)) (nodup : groups.flatten.Nodup)
    (live : ∀ id ∈ groups.flatten, g.isLive id = true) :
    (∀ ids ∈ groups, ids ≠ [] → ∃ survivor, Leads g (· ∈ ids) survivor ∧
      Unites g ids survivor (mergeBuckets g groups).2) ∧
      Elsewhere g groups.flatten (mergeBuckets g groups).2 := by
  induction groups generalizing g with
  | nil => exact ⟨by simp, fun _ _ => rfl, fun _ _ => rfl⟩
  | cons ids rest ih =>
    rw [List.flatten_cons] at nodup live ⊢
    obtain ⟨here, later, apart⟩ := List.nodup_append.mp nodup
    obtain ⟨ascending, orderedRest⟩ := List.forall_mem_cons.mp ordered
    have liveHere : ∀ id ∈ ids, g.isLive id = true :=
      fun id member => live id (List.mem_append_left _ member)
    have retires := mergeBucket_retires sound here liveHere
    obtain ⟨joins, elsewhere⟩ := mergeBucket_unites ascending liveHere
    obtain ⟨joinsRest, elsewhereRest⟩ := ih retires.sound orderedRest later fun id member =>
      retires.isLive_of_not_mem (fun inside => apart id inside id member rfl)
        (live id (List.mem_append_right _ member))
    refine ⟨List.forall_mem_cons.mpr ⟨fun some => ?_, fun others mem some => ?_⟩,
      elsewhere.trans elsewhereRest⟩
    · -- Later buckets leave the nodes of this one alone.
      obtain ⟨survivor, leads, joined⟩ := joins some
      have away : ∀ id ∈ ids, id ∉ rest.flatten := fun id member inside =>
        apart id member id inside rfl
      refine ⟨survivor, leads, joined.mem, ?_, fun id member different => ?_,
        fun id member => ?_⟩
      · exact (elsewhereRest.redirects _ (away _ joined.mem)).trans joined.last
      · exact (elsewhereRest.redirects _ (away _ member)).trans
          (joined.redirected id member different)
      · exact (joined.inherits id member).trans
          (.of_flags (elsewhereRest.flags (away _ joined.mem)))
    · obtain ⟨survivor, leads, joined⟩ := joinsRest others mem some
      have away : ∀ id ∈ others, id ∉ ids := fun id member inside =>
        apart id inside id (List.mem_flatten_of_mem mem member) rfl
      refine ⟨survivor, leads.congr fun id member => (elsewhere.scoreOf (away id member)).symm,
        joined.mem, joined.last, joined.redirected, fun id member => ?_⟩
      exact Inherits.trans (.of_flags (elsewhere.flags (away id member)))
        (joined.inherits id member)

/-! ### The survivor of a pass -/

theorem canonicalize_flags (g : Graph) (id : NodeId) : g.canonicalize.flags? id = g.flags? id := by
  rw [flags?, flags?, canonicalize_node, Option.map_map]
  congr 1
  funext node
  dsimp only [Function.comp_apply]
  split_ifs <;> rfl

def shape? (g : Graph) (id : NodeId) : Option Shape := (g.nodes[id]?).map Node.shape

theorem canonicalize_shape (g : Graph) {id : NodeId} (last : g.redirects.get? id = none) :
    g.canonicalize.shape? id = (g.shape? id).map (Shape.mapNodes g.resolve) := by
  have live := (g.redirects.contains_eq_false_iff id).mpr last
  rw [shape?, shape?, canonicalize_node, Option.map_map, Option.map_map]
  simp only [Function.comp_def, live, Bool.false_eq_true, if_false]

theorem Extends.resolve_comp {g g' : Graph} (ext : Extends g g') (sound : g'.Sound) :
    g'.resolve ∘ g.resolve = g'.resolve :=
  funext (ext.resolve_resolve sound)

theorem Extends.isLive_earlier {g g' : Graph} (ext : Extends g g')
    (size : g'.nodes.size = g.nodes.size) {id : NodeId} (live : g'.isLive id = true) :
    g.isLive id = true := by
  obtain ⟨lt, last⟩ := (isLive_iff g' id).mp live
  refine (isLive_iff g id).mpr ⟨size ▸ lt, Option.eq_none_iff_forall_ne_some.mpr ?_⟩
  intro next found
  exact nomatch last.symm.trans (ext.redirected found)

/-- In `g'` a node stands for `id` that cannot be told from it by the digests of `g`. -/
structure Survives (hash : Hash) (g : Graph) (id : NodeId) (g' : Graph) : Prop where
  isLive : g.isLive (g'.resolve id) = true
  digest : plainDigest hash g.prepared id = plainDigest hash g.prepared (g'.resolve id)
  inherits : Inherits g id g' (g'.resolve id)

theorem canonicalize_redirects (g : Graph) : g.canonicalize.redirects = g.redirects := rfl

theorem mergePass_redirects (hash : Hash) (g : Graph) : (g.mergePass hash).2.redirects =
    (mergeBuckets (compared hash g) (groups hash g)).2.redirects := by
  rw [mergePass_eq]
  dsimp only
  split_ifs
  · rfl
  · rw [canonicalize_redirects]

theorem mergePass_flags (hash : Hash) (g : Graph) (id : NodeId) : (g.mergePass hash).2.flags? id =
    (mergeBuckets (compared hash g) (groups hash g)).2.flags? id := by
  rw [mergePass_eq]
  dsimp only
  split_ifs
  · rfl
  · exact canonicalize_flags _ id

theorem compared_flags (hash : Hash) (g : Graph) (id : NodeId) :
    (compared hash g).flags? id = g.flags? id := by
  obtain ⟨cache, frame⟩ := compared_frame hash g
  rw [frame]
  exact canonicalize_flags g.forgetDigests id

theorem canonicalize_scoreOf (g : Graph) (id : NodeId) :
    g.canonicalize.scoreOf id = g.scoreOf id := by
  rw [scoreOf, scoreOf, canonicalize_node, Option.map_map]
  congr 2
  funext node
  dsimp only [Function.comp_apply]
  split_ifs <;> rfl

theorem compared_scoreOf (hash : Hash) (g : Graph) (id : NodeId) :
    (compared hash g).scoreOf id = g.scoreOf id := by
  obtain ⟨cache, frame⟩ := compared_frame hash g
  rw [frame]
  exact canonicalize_scoreOf g.forgetDigests id

theorem prepared_isLive (g : Graph) (id : NodeId) : g.prepared.isLive id = g.isLive id :=
  canonicalize_isLive g.forgetDigests id

theorem plainDigest_of_mem_groups {hash : Hash} {g : Graph} {ids : List NodeId}
    (bucket : ids ∈ groups hash g) {a b : NodeId} (memA : a ∈ ids) (memB : b ∈ ids) :
    plainDigest hash g.prepared a = plainDigest hash g.prepared b := by
  obtain ⟨digest, all⟩ := digest_of_mem_buckets bucket
  have spec := ((prepared_cacheSound hash g).digests_spec g.prepared.liveIds).1
  have taken : ∀ x ∈ ids, plainDigest hash g.prepared x = digest := by
    intro x mem
    have live := isLive_of_mem_groups (List.mem_flatten_of_mem bucket mem)
    rw [(compared_same hash g).isLive_eq] at live
    have found := all x mem
    rw [spec] at found
    obtain ⟨y, -, entry⟩ := List.mem_map.mp found
    cases entry
    rw [resolve_of_isLive live]
  rw [taken a memA, taken b memB]

theorem pairwise_of_mem_groups {hash : Hash} {g : Graph} {ids : List NodeId}
    (bucket : ids ∈ groups hash g) : ids.Pairwise (· < ·) := by
  refine pairwise_of_mem_buckets ?_ bucket
  rw [((prepared_cacheSound hash g).digests_spec g.prepared.liveIds).1, List.map_map]
  simpa [Function.comp_def, liveIds] using List.pairwise_lt_range.filter _

section pass
variable (hash : Hash) {g : Graph} (sound : g.Sound)

theorem mem_groups {id : NodeId} (live : g.isLive id = true) :
    ∃ ids ∈ groups hash g, id ∈ ids := by
  rw [← List.mem_flatten, (groups_perm hash g).mem_iff, mem_liveIds, prepared_isLive, live]

include sound

theorem mergePass_bucket {ids : List NodeId} (bucket : ids ∈ groups hash g) (some : ids ≠ []) :
    ∃ survivor, Leads g (· ∈ ids) survivor ∧ ∀ id ∈ ids,
      (g.mergePass hash).2.resolve id = survivor ∧
        Inherits g id (g.mergePass hash).2 survivor := by
  obtain ⟨unites, -⟩ :=
    mergeBuckets_unites ((compared_same hash g).sound (prepared_sound sound))
      (fun _ => pairwise_of_mem_groups)
      ((groups_perm hash g).nodup_iff.mpr (liveIds_nodup g.prepared)) fun _ => isLive_of_mem_groups
  obtain ⟨survivor, leads, united⟩ := unites ids bucket some
  have last : (g.mergePass hash).2.resolve survivor = survivor := by
    rw [resolve, follow, mergePass_redirects, united.last]
  refine ⟨survivor, leads.congr fun id _ => (compared_scoreOf hash g id).symm,
    fun id inside => ⟨?_, ?_⟩⟩
  · by_cases self : id = survivor
    · rw [self, last]
    · have next : (g.mergePass hash).2.Redirected id survivor := by
        rw [Redirected, mergePass_redirects]
        exact united.redirected id inside self
      rw [(mergePass_shrinks hash sound).sound.resolve_of_redirected next, last]
  · exact ((Inherits.of_flags (compared_flags hash g id)).trans (united.inherits id inside)).trans
      (.of_flags (mergePass_flags hash g survivor))

theorem mergePass_survives {id : NodeId} (live : g.isLive id = true) :
    Survives hash g id (g.mergePass hash).2 := by
  obtain ⟨ids, bucket, inside⟩ := mem_groups hash live
  obtain ⟨survivor, leads, stands⟩ := mergePass_bucket hash sound bucket (List.ne_nil_of_mem inside)
  obtain ⟨resolve, inherits⟩ := stands id inside
  have survives := isLive_of_mem_groups (List.mem_flatten_of_mem bucket leads.mem)
  rw [(compared_same hash g).isLive_eq, prepared_isLive] at survives
  refine ⟨?_, ?_, ?_⟩ <;> rw [resolve]
  · exact survives
  · exact plainDigest_of_mem_groups bucket inside leads.mem
  · exact inherits

theorem mergePass_resolve_eq {a b : NodeId} (liveA : g.isLive a = true) (liveB : g.isLive b = true)
    (equal : plainDigest hash g.prepared a = plainDigest hash g.prepared b) :
    (g.mergePass hash).2.resolve a = (g.mergePass hash).2.resolve b := by
  rw [← prepared_isLive] at liveA liveB
  obtain ⟨ids, bucket, inA, inB⟩ := mem_groups_together liveA liveB equal
  obtain ⟨survivor, -, stands⟩ := mergePass_bucket hash sound bucket (List.ne_nil_of_mem inA)
  rw [(stands a inA).1, (stands b inB).1]

variable {hash}

theorem isLive_of_mergePass {id : NodeId} (live : (g.mergePass hash).2.isLive id = true) :
    g.isLive id = true :=
  (mergePass_extends sound).isLive_earlier (mergePass_shrinks hash sound).size live

theorem mergePass_shape {id : NodeId} (live : (g.mergePass hash).2.isLive id = true) :
    (g.mergePass hash).2.shape? id =
      (g.shape? id).map (Shape.mapNodes (g.mergePass hash).2.resolve) := by
  have pass := mergePass_shrinks hash sound
  have ext : Extends g (g.mergePass hash).2 := mergePass_extends sound
  have last := ((isLive_iff _ id).mp live).2
  have before := ((isLive_iff g id).mp (isLive_of_mergePass sound live)).2
  have merged : (mergeBuckets (compared hash g) (groups hash g)).2.shape? id =
      (g.shape? id).map (Shape.mapNodes g.resolve) := by
    rw [shape?, ← Array.getElem?_map, (mergeBuckets_groups hash sound).shapes,
      (compared_same hash g).shapes, Array.getElem?_map]
    exact canonicalize_shape g.forgetDigests before
  by_cases none : (g.mergePass hash).1 = 0
  · obtain ⟨cache, frame⟩ := compared_frame hash g
    have resolve : (g.mergePass hash).2.resolve = g.resolve := by
      rw [mergePass_last none, frame]
      rfl
    rw [resolve, ← merged, mergePass_eq]
    rw [mergePass_eq] at none
    dsimp only at none ⊢
    rw [if_pos none]
  · have resolve : (g.mergePass hash).2.resolve =
        (mergeBuckets (compared hash g) (groups hash g)).2.resolve := by
      funext id
      rw [Graph.resolve, Graph.resolve, mergePass_redirects]
    have nodes : (g.mergePass hash).2.nodes =
        (mergeBuckets (compared hash g) (groups hash g)).2.canonicalize.nodes := by
      rw [mergePass_eq] at none ⊢
      dsimp only at none ⊢
      rw [if_neg none]
    rw [mergePass_redirects] at last
    calc (g.mergePass hash).2.shape? id
        = (mergeBuckets (compared hash g) (groups hash g)).2.canonicalize.shape? id := by
          rw [shape?, shape?, nodes]
      _ = ((g.shape? id).map (Shape.mapNodes g.resolve)).map
            (Shape.mapNodes (g.mergePass hash).2.resolve) := by
          rw [canonicalize_shape _ last, merged, resolve]
      _ = (g.shape? id).map (Shape.mapNodes (g.mergePass hash).2.resolve) := by
          rw [Option.map_map, Shape.mapNodes_comp, ext.resolve_comp pass.sound]

end pass

/-! ### All passes -/

/-- A consolidation of the first graph has a pass that starts from the second. -/
inductive Begins (hash : Hash) : Graph → Graph → Prop
  | here {g : Graph} : Begins hash g g
  | later {g h : Graph} (some : (g.mergePass hash).1 ≠ 0)
      (rest : Begins hash (g.mergePass hash).2 h) : Begins hash g h

theorem Begins.kept {hash : Hash} {α : Type} {view : Node → α} (lasting : Lasting view)
    {g h : Graph} (begins : Begins hash g h) (sound : g.Sound) :
    h.nodes.map view = g.nodes.map view ∧ ∀ id, h.isLive id = true → g.isLive id = true := by
  induction begins with
  | here => exact ⟨rfl, fun _ => id⟩
  | later some rest ih =>
    obtain ⟨nodes, live⟩ := ih (mergePass_shrinks hash sound).sound
    exact ⟨nodes.trans (mergePass_map lasting hash _),
      fun id alive => isLive_of_mergePass sound (live id alive)⟩

section passes
variable {hash : Hash} {g g' : Graph} {count : Nat}

theorem Passes.sound (passes : Passes hash g count g') (sound : g.Sound) : g'.Sound := by
  induction passes with
  | last none => exact (mergePass_shrinks hash sound).sound
  | more some rest ih => exact ih (mergePass_shrinks hash sound).sound

theorem Passes.inherits (passes : Passes hash g count g') (sound : g.Sound) {id : NodeId}
    (live : g.isLive id = true) : Inherits g id g' (g'.resolve id) := by
  induction passes generalizing id with
  | last none => exact (mergePass_survives hash sound live).inherits
  | @more g g' _ some rest ih =>
    have pass := mergePass_shrinks hash sound
    have lt := ((isLive_iff g id).mp live).1
    have first := (mergePass_survives hash sound live).inherits
    have next := ih pass.sound (pass.sound.isLive_resolve (pass.size.symm ▸ lt))
    rw [(rest.extends pass.sound).resolve_resolve (rest.sound pass.sound)] at next
    exact first.trans next

theorem Passes.size (passes : Passes hash g count g') (sound : g.Sound) :
    g'.nodes.size = g.nodes.size := by
  induction passes with
  | last none => exact (mergePass_shrinks hash sound).size
  | more some rest ih =>
    have pass := mergePass_shrinks hash sound
    exact (ih pass.sound).trans pass.size

theorem Passes.shape (passes : Passes hash g count g') (sound : g.Sound) {id : NodeId}
    (live : g'.isLive id = true) :
    g'.shape? id = (g.shape? id).map (Shape.mapNodes g'.resolve) := by
  induction passes with
  | last none => exact mergePass_shape sound live
  | @more g g' _ some rest ih =>
    have pass := mergePass_shrinks hash sound
    have ext := rest.extends pass.sound
    have first := mergePass_shape sound (ext.isLive_earlier (rest.size pass.sound) live)
    rw [ih pass.sound live, first, Option.map_map, Shape.mapNodes_comp,
      ext.resolve_comp (rest.sound pass.sound)]

theorem Passes.view_resolve {α : Type} {view : Node → α} (lasting : Lasting view)
    (passes : Passes hash g count g') (sound : g.Sound)
    (alike : ∀ h : Graph, Begins hash g h → ∀ a b : NodeId, h.isLive a = true → h.isLive b = true →
      plainDigest hash h.prepared a = plainDigest hash h.prepared b →
      (h.nodes[a]?).map view = (h.nodes[b]?).map view) {id : NodeId} (live : g.isLive id = true) :
    (g.nodes[id]?).map view = (g.nodes[g'.resolve id]?).map view := by
  induction passes generalizing id with
  | @last g none =>
    have survives := mergePass_survives hash sound live
    exact alike g .here id _ live survives.isLive survives.digest
  | @more g g' _ some rest ih =>
    have pass := mergePass_shrinks hash sound
    have lt := ((isLive_iff g id).mp live).1
    have kept : ∀ id : NodeId,
        ((g.mergePass hash).2.nodes[id]?).map view = (g.nodes[id]?).map view := by
      intro id
      rw [← Array.getElem?_map, mergePass_map lasting, Array.getElem?_map]
    have survives := mergePass_survives hash sound live
    have first := alike g .here id _ live survives.isLive survives.digest
    have next := ih pass.sound (fun h begins => alike h (.later some begins))
      (pass.sound.isLive_resolve (pass.size.symm ▸ lt))
    rw [(rest.extends pass.sound).resolve_resolve (rest.sound pass.sound), kept, kept] at next
    exact first.trans next

theorem Passes.resolve_eq (passes : Passes hash g count g') (sound : g.Sound) {a b : NodeId}
    (liveA : g.isLive a = true) (liveB : g.isLive b = true)
    (equal : plainDigest hash g.prepared a = plainDigest hash g.prepared b) :
    g'.resolve a = g'.resolve b := by
  have first := mergePass_resolve_eq hash sound liveA liveB equal
  cases passes with
  | last none => exact first
  | more some rest =>
    have pass := mergePass_shrinks hash sound
    have resolve := (rest.extends pass.sound).resolve_resolve (rest.sound pass.sound)
    rw [← resolve a, first, resolve b]

theorem recordEdges_shape (g : Graph) (id : NodeId) : g.recordEdges.shape? id = g.shape? id := rfl

theorem recordEdges_flags (g : Graph) (id : NodeId) : g.recordEdges.flags? id = g.flags? id := rfl

theorem recordEdges_resolve (g : Graph) : g.recordEdges.resolve = g.resolve := rfl

theorem consolidate_shape (sound : g.Sound) {id : NodeId}
    (live : (g.consolidate hash).2.isLive id = true) : (g.consolidate hash).2.shape? id =
      (g.shape? id).map (Shape.mapNodes (g.consolidate hash).2.resolve) := by
  obtain ⟨before, -, -, passes, result⟩ := consolidate_last hash sound
  rw [result, (recordEdges_same _).isLive_eq] at live
  rw [result, recordEdges_shape, recordEdges_resolve, passes.shape sound live]

theorem consolidate_inherits (sound : g.Sound) {id : NodeId} (live : g.isLive id = true) :
    Inherits g id (g.consolidate hash).2 ((g.consolidate hash).2.resolve id) := by
  obtain ⟨before, -, -, passes, result⟩ := consolidate_last hash sound
  rw [result, recordEdges_resolve]
  exact (passes.inherits sound live).trans (.of_flags (recordEdges_flags _ _))

theorem consolidate_view_resolve {α : Type} {view : Node → α} (lasting : Lasting view)
    (sound : g.Sound)
    (alike : ∀ h : Graph, Begins hash g h → ∀ a b : NodeId, h.isLive a = true → h.isLive b = true →
      plainDigest hash h.prepared a = plainDigest hash h.prepared b →
      (h.nodes[a]?).map view = (h.nodes[b]?).map view) {id : NodeId} (live : g.isLive id = true) :
    (g.nodes[id]?).map view = (g.nodes[(g.consolidate hash).2.resolve id]?).map view := by
  obtain ⟨before, -, -, passes, result⟩ := consolidate_last hash sound
  rw [result, recordEdges_resolve, ← passes.view_resolve lasting sound alike live]

theorem consolidate_resolve_eq (sound : g.Sound) {a b : NodeId} (liveA : g.isLive a = true)
    (liveB : g.isLive b = true)
    (equal : plainDigest hash g.prepared a = plainDigest hash g.prepared b) :
    (g.consolidate hash).2.resolve a = (g.consolidate hash).2.resolve b := by
  obtain ⟨before, -, -, passes, result⟩ := consolidate_last hash sound
  rw [result, recordEdges_resolve, passes.resolve_eq sound liveA liveB equal]

end passes

end TypeLoom.Graph
