import TypeLoom.Graph.Merge
import TypeLoom.Proofs.Digests

/-! One pass of merging. Buckets part the live nodes by digest; all nodes of a bucket but one are
retired, and every node that is retired leaves one redirect more. -/
namespace TypeLoom.Graph

theorem flatten_addToBucket (digest : String) (id : NodeId) (groups : List (String × List NodeId)) :
    ((addToBucket digest id groups).map Prod.snd).flatten.Perm
      (id :: (groups.map Prod.snd).flatten) := by
  induction groups with
  | nil => exact .refl _
  | cons group rest ih =>
    obtain ⟨own, ids⟩ := group
    rw [addToBucket]
    split_ifs with same
    · simp only [List.map_cons, List.flatten_cons, List.append_assoc, List.singleton_append]
      exact List.perm_middle
    · simp only [List.map_cons, List.flatten_cons]
      exact (ih.append_left ids).trans List.perm_middle

theorem keys_addToBucket (digest : String) (id : NodeId) (groups : List (String × List NodeId)) :
    (addToBucket digest id groups).map Prod.fst = groups.map Prod.fst ∨
      digest ∉ groups.map Prod.fst ∧
        (addToBucket digest id groups).map Prod.fst = groups.map Prod.fst ++ [digest] := by
  induction groups with
  | nil => exact .inr ⟨List.not_mem_nil, rfl⟩
  | cons group rest ih =>
    obtain ⟨own, ids⟩ := group
    rw [addToBucket]
    split_ifs with same
    · exact .inl rfl
    · simp only [List.map_cons, List.mem_cons, List.cons_append, List.cons.injEq, true_and]
      rcases ih with kept | ⟨fresh, added⟩
      · exact .inl kept
      · exact .inr ⟨by simp [fresh, Ne.symm same], added⟩

theorem mem_addToBucket_self (digest : String) (id : NodeId)
    (groups : List (String × List NodeId)) :
    ∃ ids, (digest, ids) ∈ addToBucket digest id groups ∧ id ∈ ids := by
  induction groups with
  | nil => exact ⟨[id], List.mem_singleton_self _, List.mem_singleton_self _⟩
  | cons group rest ih =>
    obtain ⟨own, ids⟩ := group
    rw [addToBucket]
    split_ifs with same
    · exact ⟨ids ++ [id], by simp [same], by simp⟩
    · obtain ⟨found, member, inside⟩ := ih
      exact ⟨found, List.mem_cons_of_mem _ member, inside⟩

theorem mem_addToBucket_of_mem (digest : String) (id : NodeId) {other : String} {ids : List NodeId}
    {groups : List (String × List NodeId)} (member : (other, ids) ∈ groups) :
    ∃ more, (other, more) ∈ addToBucket digest id groups ∧ ids ⊆ more := by
  induction groups with
  | nil => cases member
  | cons group rest ih =>
    obtain ⟨own, those⟩ := group
    rw [addToBucket]
    rcases List.mem_cons.mp member with here | later
    · obtain ⟨rfl, rfl⟩ := Prod.mk.inj here
      split_ifs with same
      · exact ⟨ids ++ [id], List.mem_cons_self, List.subset_append_left ids [id]⟩
      · exact ⟨ids, List.mem_cons_self, List.Subset.refl ids⟩
    · split_ifs with same
      · exact ⟨ids, List.mem_cons_of_mem _ later, List.Subset.refl ids⟩
      · obtain ⟨more, inside, subset⟩ := ih later
        exact ⟨more, List.mem_cons_of_mem _ inside, subset⟩

theorem flatten_buckets (digests : List (NodeId × String)) :
    (buckets digests).flatten.Perm (digests.map Prod.fst) := by
  have general : ∀ groups : List (String × List NodeId),
      ((digests.foldl (fun groups entry => addToBucket entry.2 entry.1 groups) groups).map
        Prod.snd).flatten.Perm (digests.map Prod.fst ++ (groups.map Prod.snd).flatten) := by
    induction digests with
    | nil => exact fun groups => .refl _
    | cons entry rest ih =>
      obtain ⟨id, digest⟩ := entry
      intro groups
      rw [List.foldl_cons, List.map_cons, List.cons_append]
      exact (ih _).trans
        (((flatten_addToBucket digest id groups).append_left _).trans List.perm_middle)
  have all := general []
  rwa [List.map_nil, List.flatten_nil, List.append_nil] at all

theorem mem_buckets_together {digests : List (NodeId × String)} {a b : NodeId} {digest : String}
    (memberA : (a, digest) ∈ digests) (memberB : (b, digest) ∈ digests) :
    ∃ ids ∈ buckets digests, a ∈ ids ∧ b ∈ ids := by
  -- Along the fold the keys of the groups stay distinct, and whatever was put into a group stays.
  have general : ∀ groups : List (String × List NodeId), (groups.map Prod.fst).Nodup →
      let result := digests.foldl (fun groups entry => addToBucket entry.2 entry.1 groups) groups
      (result.map Prod.fst).Nodup ∧
        (∀ {key ids}, (key, ids) ∈ groups → ∃ more, (key, more) ∈ result ∧ ids ⊆ more) ∧
        ∀ {id key}, (id, key) ∈ digests → ∃ ids, (key, ids) ∈ result ∧ id ∈ ids := by
    clear memberA memberB
    induction digests with
    | nil =>
      exact fun groups nodup => ⟨nodup, fun member => ⟨_, member, List.Subset.refl _⟩, by simp⟩
    | cons entry rest ih =>
      obtain ⟨first, key⟩ := entry
      intro groups nodup
      have nodupNext : ((addToBucket key first groups).map Prod.fst).Nodup := by
        rcases keys_addToBucket key first groups with kept | ⟨fresh, added⟩
        · rwa [kept]
        · rw [added, List.nodup_append]
          exact ⟨nodup, List.nodup_singleton key, by
            intro x inside y single same
            rw [List.mem_singleton] at single
            exact fresh (single ▸ same ▸ inside)⟩
      obtain ⟨distinct, kept, placed⟩ := ih (addToBucket key first groups) nodupNext
      refine ⟨distinct, ?_, ?_⟩
      · intro own ids member
        obtain ⟨some, inside, subset⟩ := mem_addToBucket_of_mem key first member
        obtain ⟨more, last, wider⟩ := kept inside
        exact ⟨more, last, List.Subset.trans subset wider⟩
      · intro id own member
        rcases List.mem_cons.mp member with here | later
        · obtain ⟨rfl, rfl⟩ := Prod.mk.inj here
          obtain ⟨some, inside, within⟩ := mem_addToBucket_self own id groups
          obtain ⟨more, last, wider⟩ := kept inside
          exact ⟨more, last, wider within⟩
        · exact placed later
  obtain ⟨distinct, -, placed⟩ := general [] List.nodup_nil
  obtain ⟨idsA, inA, hereA⟩ := placed memberA
  obtain ⟨idsB, inB, hereB⟩ := placed memberB
  have same := List.inj_on_of_nodup_map distinct inA inB rfl
  exact ⟨idsA, List.mem_map.mpr ⟨_, inA, rfl⟩, hereA, (Prod.mk.inj same).2 ▸ hereB⟩

theorem map_modifyNode {α : Type} (g : Graph) (id : NodeId) {change : Node → Node} {view : Node → α}
    (kept : ∀ n, view (change n) = view n) :
    (g.modifyNode id change).nodes.map view = g.nodes.map view := by
  apply Array.ext
  · simp [modifyNode]
  · intro i _ _
    by_cases same : id = i <;> simp [modifyNode, Array.getElem_modify, same, kept]

@[simp] theorem freeName_nodes (g : Graph) (id : NodeId) (name : String) :
    (g.freeName id name).nodes = g.nodes := by
  rw [freeName]
  split_ifs <;> rfl

@[simp] theorem freeName_redirects (g : Graph) (id : NodeId) (name : String) :
    (g.freeName id name).redirects = g.redirects := by
  rw [freeName]
  split_ifs <;> rfl

/-- `count` of the nodes `ids` are retired; shapes stay as they are. -/
structure Retires (g : Graph) (ids : List NodeId) (count : Nat) (g' : Graph) : Prop where
  shapes : g'.nodes.map Node.shape = g.nodes.map Node.shape
  sound : g'.Sound
  size : g'.redirects.size = g.redirects.size + count
  outside : ∀ id ∉ ids, g'.redirects.get? id = g.redirects.get? id

namespace Retires
variable {g g' g'' : Graph} {ids others : List NodeId} {count more : Nat}

theorem refl (sound : g.Sound) (ids : List NodeId) : Retires g ids 0 g :=
  ⟨rfl, sound, rfl, fun _ _ => rfl⟩

theorem nodes_size (retires : Retires g ids count g') : g'.nodes.size = g.nodes.size := by
  simpa using congrArg Array.size retires.shapes

theorem trans (first : Retires g ids count g') (second : Retires g' others more g'') :
    Retires g (ids ++ others) (count + more) g'' where
  shapes := second.shapes.trans first.shapes
  sound := second.sound
  size := by rw [second.size, first.size, Nat.add_assoc]
  outside id absent := by
    rw [List.mem_append, not_or] at absent
    rw [second.outside id absent.2, first.outside id absent.1]

theorem isLive_of_not_mem (retires : Retires g ids count g') {id : NodeId} (absent : id ∉ ids)
    (live : g.isLive id = true) : g'.isLive id = true := by
  rw [isLive_iff] at live ⊢
  rwa [retires.nodes_size, retires.outside id absent]

theorem of_subset (retires : Retires g ids count g') (subset : ids ⊆ others) :
    Retires g others count g' :=
  ⟨retires.shapes, retires.sound, retires.size, fun id absent =>
    retires.outside id fun member => absent (subset member)⟩

theorem liveCount (retires : Retires g ids count g') : g'.liveCount + count = g.liveCount := by
  have le := retires.sound.size_le
  rw [retires.size] at le
  rw [Graph.liveCount, Graph.liveCount, retires.size, retires.nodes_size]
  rw [retires.nodes_size] at le
  omega

end Retires

theorem absorb_retires {g : Graph} (sound : g.Sound) {survivor loser : NodeId}
    (survives : g.isLive survivor = true) (loses : g.isLive loser = true) (ne : survivor ≠ loser) :
    Retires g [loser] 1 (g.absorb survivor loser) := by
  rw [isLive_iff] at survives loses
  obtain ⟨lost, found⟩ : ∃ lost, g.nodes[loser]? = some lost :=
    ⟨_, Array.getElem?_eq_getElem loses.1⟩
  have absent : g.redirects.contains loser = false :=
    (g.redirects.contains_eq_false_iff loser).mpr loses.2
  have redirects : (g.absorb survivor loser).redirects = g.redirects.insert loser survivor := by
    simp [absorb, found, modifyNode]
  have shapes : (g.absorb survivor loser).nodes.map Node.shape = g.nodes.map Node.shape := by
    simp only [absorb, found, freeName_nodes]
    exact map_modifyNode g survivor fun _ => rfl
  have nodes : (g.absorb survivor loser).nodes.size = g.nodes.size := by
    simpa using congrArg Array.size shapes
  refine ⟨shapes, ?_, ?_, ?_⟩
  · rw [Sound, redirects, nodes]
    exact SoundRedirects.insert sound loses.1 survives.1 survives.2 ne
  · rw [redirects, Table.size_insert _ _ absent]
  · intro id different
    rw [redirects, Table.get?_insert_of_ne]
    exact fun same => different (List.mem_singleton.mpr same)

theorem foldl_absorb_retires {g : Graph} (sound : g.Sound) {survivor : NodeId}
    {losers : List NodeId}
    (nodup : (survivor :: losers).Nodup) (live : ∀ id ∈ survivor :: losers, g.isLive id = true) :
    Retires g losers losers.length (losers.foldl (fun g loser => g.absorb survivor loser) g) := by
  induction losers generalizing g with
  | nil => exact .refl sound []
  | cons loser rest ih =>
    obtain ⟨notMem, nodupRest⟩ := List.nodup_cons.mp nodup
    obtain ⟨fresh, distinct⟩ := List.nodup_cons.mp nodupRest
    have ne : survivor ≠ loser := fun same => notMem (same ▸ List.mem_cons_self)
    have first := absorb_retires sound (live survivor (by simp)) (live loser (by simp)) ne
    have liveNext : ∀ id ∈ survivor :: rest, (g.absorb survivor loser).isLive id = true := by
      intro id member
      apply first.isLive_of_not_mem
      · rintro only
        rw [List.mem_singleton] at only
        rcases List.mem_cons.mp member with same | later
        · exact ne (same.symm.trans only)
        · exact fresh (only ▸ later)
      · exact live id (by simp only [List.mem_cons] at member ⊢; tauto)
    have later := ih first.sound
      (List.nodup_cons.mpr ⟨fun member => notMem (List.mem_cons_of_mem _ member), distinct⟩)
      liveNext
    have both := first.trans later
    rwa [Nat.add_comm] at both

theorem mergeBucket_retires {g : Graph} (sound : g.Sound) {ids : List NodeId} (nodup : ids.Nodup)
    (live : ∀ id ∈ ids, g.isLive id = true) :
    Retires g ids (g.mergeBucket ids).1 (g.mergeBucket ids).2 := by
  have perm : (g.byScore ids).Perm ids := List.mergeSort_perm _ _
  rw [mergeBucket]
  cases sorted : g.byScore ids with
  | nil => exact .refl sound ids
  | cons survivor losers =>
    rw [sorted] at perm
    have retires := foldl_absorb_retires sound (perm.nodup_iff.mpr nodup)
      fun id member => live id (perm.mem_iff.mp member)
    exact retires.of_subset fun id member => perm.mem_iff.mp (List.mem_cons_of_mem survivor member)

theorem mergeBuckets_retires {g : Graph} (sound : g.Sound) {groups : List (List NodeId)}
    (nodup : groups.flatten.Nodup) (live : ∀ id ∈ groups.flatten, g.isLive id = true) :
    Retires g groups.flatten (mergeBuckets g groups).1 (mergeBuckets g groups).2 := by
  induction groups generalizing g with
  | nil => exact .refl sound []
  | cons ids rest ih =>
    rw [List.flatten_cons] at nodup live ⊢
    obtain ⟨here, later, apart⟩ := List.nodup_append.mp nodup
    have first :=
      mergeBucket_retires sound here fun id member => live id (List.mem_append_left _ member)
    refine first.trans (ih first.sound later fun id member => ?_)
    apply first.isLive_of_not_mem
    · exact fun inside => apart id inside id member rfl
    · exact live id (List.mem_append_right _ member)

theorem mergeBucket_count (g : Graph) (ids : List NodeId) :
    (g.mergeBucket ids).1 = ids.length - 1 := by
  have length : (g.byScore ids).length = ids.length := List.length_mergeSort _
  rw [mergeBucket]
  cases sorted : g.byScore ids with
  | nil => simp [← length, sorted]
  | cons survivor losers => simp [← length, sorted]

theorem mergeBuckets_of_count_eq_zero {g : Graph} {groups : List (List NodeId)}
    (none : (mergeBuckets g groups).1 = 0) :
    (mergeBuckets g groups).2 = g ∧ ∀ ids ∈ groups, ids.length ≤ 1 := by
  induction groups generalizing g with
  | nil => exact ⟨rfl, nofun⟩
  | cons ids rest ih =>
    obtain ⟨first, others⟩ : (g.mergeBucket ids).1 = 0 ∧
        (mergeBuckets (g.mergeBucket ids).2 rest).1 = 0 := Nat.add_eq_zero_iff.mp none
    have same : (g.mergeBucket ids).2 = g := by
      rw [mergeBucket] at first ⊢
      cases sorted : g.byScore ids with
      | nil => rfl
      | cons survivor losers =>
        rw [sorted] at first
        obtain rfl := List.length_eq_zero_iff.mp first
        rfl
    rw [mergeBucket_count] at first
    rw [same] at others
    obtain ⟨unchanged, short⟩ := ih others
    refine ⟨?_, List.forall_mem_cons.mpr ⟨by omega, short⟩⟩
    simp only [mergeBuckets, same, unchanged]

theorem mergeBuckets_count_congr (g g' : Graph) (groups : List (List NodeId)) :
    (mergeBuckets g groups).1 = (mergeBuckets g' groups).1 := by
  induction groups generalizing g g' with
  | nil => rfl
  | cons ids rest ih =>
    simp only [mergeBuckets, mergeBucket_count]
    rw [ih]

end TypeLoom.Graph
