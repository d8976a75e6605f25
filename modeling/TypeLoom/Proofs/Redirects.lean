import Mathlib.Data.List.Perm.Subperm
import Mathlib.Data.List.Nodup
import Mathlib.Data.List.Range
import Mathlib.Data.Nat.Find
import TypeLoom.Graph.Basic

/-! Chains of redirects. A chain ends when it comes to a node without a redirect. If all chains end,
no node occurs twice on one, so a walk of one step more than there are redirects is long enough:
`resolve` gives the end of the chain, which is live, and resolving it again changes nothing. -/
namespace TypeLoom

namespace Table
variable {κ ν : Type}

def keys (t : Table κ ν) : List κ := t.entries.map Prod.fst

def Distinct (t : Table κ ν) : Prop := t.keys.Nodup

theorem length_keys (t : Table κ ν) : t.keys.length = t.size := by
  simp [keys, size]

variable [DecidableEq κ]

theorem contains_iff_mem_keys (t : Table κ ν) (key : κ) : t.contains key = true ↔ key ∈ t.keys := by
  simp [contains, keys]

theorem contains_iff_get? (t : Table κ ν) (key : κ) :
    t.contains key = true ↔ ∃ value, t.get? key = some value := by
  rw [contains_eq_isSome, Option.isSome_iff_exists]

theorem contains_eq_false_iff (t : Table κ ν) (key : κ) :
    t.contains key = false ↔ t.get? key = none := by
  rw [contains_eq_isSome, Option.isSome_eq_false_iff, Option.isNone_iff_eq_none]

theorem get?_insert (t : Table κ ν) (key other : κ) (value : ν) :
    (t.insert key value).get? other = if other = key then some value else t.get? other := by
  split_ifs with same
  · rw [same, get?_insert_self]
  · exact t.get?_insert_of_ne value same

@[simp] theorem get?_empty (key : κ) : (({} : Table κ ν).get? key) = none := rfl

theorem entries_erase_of_not_contains (t : Table κ ν) {key : κ} (absent : t.contains key = false) :
    (t.erase key).entries = t.entries := by
  simp only [contains, List.any_eq_false, decide_eq_true_eq] at absent
  simpa [erase, List.filter_eq_self] using absent

theorem size_insert (t : Table κ ν) {key : κ} (value : ν) (absent : t.contains key = false) :
    (t.insert key value).size = t.size + 1 := by
  simp [size, insert, t.entries_erase_of_not_contains absent]

theorem Distinct.insert {t : Table κ ν} (distinct : t.Distinct) (key : κ) (value : ν) :
    (t.insert key value).Distinct := by
  have rest : ((t.erase key).entries.map Prod.fst).Nodup :=
    distinct.sublist (List.filter_sublist.map Prod.fst)
  have absent : key ∉ (t.erase key).entries.map Prod.fst := by simp [erase]
  exact List.nodup_cons.mpr ⟨absent, rest⟩

end Table

namespace Graph

section follow
variable (redirects : Table NodeId NodeId)

theorem follow_of_end {id : NodeId} (last : redirects.get? id = none) (steps : Nat) :
    follow redirects steps id = id := by
  cases steps with
  | zero => rfl
  | succ steps => rw [follow, last]

theorem follow_add (m n : Nat) (id : NodeId) :
    follow redirects (m + n) id = follow redirects n (follow redirects m id) := by
  induction m generalizing id with
  | zero => rw [Nat.zero_add, follow]
  | succ m ih =>
    rw [Nat.succ_add, follow, follow]
    cases found : redirects.get? id with
    | none => rw [follow_of_end redirects found]
    | some next => exact ih next

theorem follow_of_le {id : NodeId} {m n : Nat}
    (last : redirects.get? (follow redirects m id) = none)
    (le : m ≤ n) : follow redirects n id = follow redirects m id := by
  obtain ⟨k, rfl⟩ := Nat.exists_eq_add_of_le le
  rw [follow_add, follow_of_end redirects last]

end follow

/-- The redirects of a graph with `size` nodes lead from node to node, and every chain ends. -/
structure SoundRedirects (redirects : Table NodeId NodeId) (size : Nat) : Prop where
  distinct : redirects.Distinct
  source_lt : ∀ {a b}, redirects.get? a = some b → a < size
  target_lt : ∀ {a b}, redirects.get? a = some b → b < size
  ends : ∀ id, ∃ steps, redirects.get? (follow redirects steps id) = none

namespace SoundRedirects
variable {redirects : Table NodeId NodeId} {size : Nat}

theorem empty (size : Nat) : SoundRedirects {} size where
  distinct := List.nodup_nil
  source_lt found := nomatch found
  target_lt found := nomatch found
  ends _ := ⟨0, rfl⟩

theorem mono (sound : SoundRedirects redirects size) {larger : Nat} (le : size ≤ larger) :
    SoundRedirects redirects larger where
  distinct := sound.distinct
  source_lt found := (sound.source_lt found).trans_le le
  target_lt found := (sound.target_lt found).trans_le le
  ends := sound.ends

theorem size_le (sound : SoundRedirects redirects size) : redirects.size ≤ size := by
  have inside : redirects.keys ⊆ List.range size := by
    intro id member
    obtain ⟨target, found⟩ :=
      (redirects.contains_iff_get? id).mp ((redirects.contains_iff_mem_keys id).mpr member)
    exact List.mem_range.mpr (sound.source_lt found)
  have le := (sound.distinct.subperm inside).length_le
  rwa [Table.length_keys, List.length_range] at le

/-- Before its end a walk comes to different nodes, all of them with a redirect. So it ends within
as many steps as there are redirects. -/
theorem end_within (sound : SoundRedirects redirects size) (id : NodeId) :
    ∃ steps ≤ redirects.size, redirects.get? (follow redirects steps id) = none := by
  let first := Nat.find (sound.ends id)
  have last : redirects.get? (follow redirects first id) = none := Nat.find_spec (sound.ends id)
  have before : ∀ steps < first, redirects.get? (follow redirects steps id) ≠ none :=
    fun steps lt => Nat.find_min (sound.ends id) lt
  -- A node met twice would bring the end nearer by the length of the loop.
  have apart : ∀ i < first, ∀ j < first, i < j →
      follow redirects i id ≠ follow redirects j id := by
    intro i _ j hj lt same
    apply before (i + (first - j)) (by omega)
    rw [follow_add, same, ← follow_add, show j + (first - j) = first by omega]
    exact last
  have nodup : ((List.range first).map fun steps => follow redirects steps id).Nodup := by
    refine List.Nodup.map_on ?_ List.nodup_range
    intro i hi j hj same
    rw [List.mem_range] at hi hj
    rcases Nat.lt_trichotomy i j with lt | eq | gt
    · exact absurd same (apart i hi j hj lt)
    · exact eq
    · exact absurd same.symm (apart j hj i hi gt)
  have inside :
      ((List.range first).map fun steps => follow redirects steps id) ⊆ redirects.keys := by
    intro node member
    obtain ⟨steps, range, rfl⟩ := List.mem_map.mp member
    rw [← Table.contains_iff_mem_keys, Table.contains_eq_isSome, Option.isSome_iff_ne_none]
    exact before steps (List.mem_range.mp range)
  have le := (nodup.subperm inside).length_le
  rw [List.length_map, List.length_range, Table.length_keys] at le
  exact ⟨first, le, last⟩

theorem follow_lt (sound : SoundRedirects redirects size) {id : NodeId} (lt : id < size)
    (steps : Nat) : follow redirects steps id < size := by
  induction steps generalizing id with
  | zero => exact lt
  | succ steps ih =>
    rw [follow]
    cases found : redirects.get? id with
    | none => exact lt
    | some next => exact ih (sound.target_lt found)

theorem insert (sound : SoundRedirects redirects size) {old new : NodeId}
    (oldLt : old < size) (newLt : new < size) (newEnd : redirects.get? new = none)
    (ne : new ≠ old) : SoundRedirects (redirects.insert old new) size where
  distinct := sound.distinct.insert old new
  source_lt := by
    intro a b found
    rw [Table.get?_insert] at found
    split_ifs at found with same
    · exact same ▸ oldLt
    · exact sound.source_lt found
  target_lt := by
    intro a b found
    rw [Table.get?_insert] at found
    split_ifs at found with same
    · exact Option.some.inj found ▸ newLt
    · exact sound.target_lt found
  ends := by
    have atOld :
        (redirects.insert old new).get? (follow (redirects.insert old new) 1 old) = none := by
      rw [follow, Table.get?_insert_self]
      exact (redirects.get?_insert_of_ne new ne).trans newEnd
    have walk : ∀ steps id, redirects.get? (follow redirects steps id) = none →
        ∃ more, (redirects.insert old new).get? (follow (redirects.insert old new) more id) =
          none := by
      intro steps
      induction steps with
      | zero =>
        intro id last
        by_cases same : id = old
        · exact ⟨1, same ▸ atOld⟩
        · exact ⟨0, (redirects.get?_insert_of_ne new same).trans last⟩
      | succ steps ih =>
        intro id last
        by_cases same : id = old
        · exact ⟨1, same ▸ atOld⟩
        · have kept := redirects.get?_insert_of_ne new same
          cases found : redirects.get? id with
          | none => exact ⟨0, kept.trans found⟩
          | some next =>
            rw [follow, found] at last
            obtain ⟨more, done⟩ := ih next last
            exact ⟨more + 1, by rwa [follow, kept, found]⟩
    intro id
    obtain ⟨steps, last⟩ := sound.ends id
    exact walk steps id last

end SoundRedirects

/-- Every chain of redirects of the graph ends at a node of the graph. -/
def Sound (g : Graph) : Prop := SoundRedirects g.redirects g.nodes.size

theorem isLive_iff (g : Graph) (id : NodeId) :
    g.isLive id = true ↔ id < g.nodes.size ∧ g.redirects.get? id = none := by
  rw [isLive, Bool.and_eq_true, decide_eq_true_eq, Bool.not_eq_true', Table.contains_eq_false_iff]

theorem mem_liveIds (g : Graph) (id : NodeId) : id ∈ g.liveIds ↔ g.isLive id = true := by
  simp [liveIds, isLive]

theorem liveIds_nodup (g : Graph) : g.liveIds.Nodup := List.nodup_range.filter _

theorem mem_liveNodes {g : Graph} {id : NodeId} {node : Node} :
    (id, node) ∈ g.liveNodes ↔ g.isLive id = true ∧ g.nodes[id]? = some node := by
  rw [liveNodes, List.mem_filterMap]
  constructor
  · rintro ⟨other, live, found⟩
    obtain ⟨_, there, ⟨⟩⟩ := Option.map_eq_some_iff.mp found
    exact ⟨(g.mem_liveIds _).mp live, there⟩
  · rintro ⟨live, there⟩
    exact ⟨id, (g.mem_liveIds id).mpr live, by rw [there]; rfl⟩

theorem liveNodes_nodup (g : Graph) : g.liveNodes.Nodup := by
  refine List.Nodup.filterMap (fun a b entry left right => ?_) g.liveIds_nodup
  obtain ⟨_, -, rfl⟩ := Option.map_eq_some_iff.mp left
  obtain ⟨_, -, same⟩ := Option.map_eq_some_iff.mp right
  exact (congrArg Prod.fst same).symm

theorem resolve_of_end {g : Graph} {id : NodeId} (last : g.redirects.get? id = none) :
    g.resolve id = id := follow_of_end g.redirects last _

theorem resolve_of_isLive {g : Graph} {id : NodeId} (live : g.isLive id = true) :
    g.resolve id = id := resolve_of_end ((g.isLive_iff id).mp live).2

namespace Sound
variable {g : Graph}

theorem resolve_end (sound : g.Sound) (id : NodeId) : g.redirects.get? (g.resolve id) = none := by
  obtain ⟨steps, le, last⟩ := SoundRedirects.end_within sound id
  rw [resolve, follow_of_le g.redirects last (by omega)]
  exact last

theorem resolve_resolve (sound : g.Sound) (id : NodeId) :
    g.resolve (g.resolve id) = g.resolve id := resolve_of_end (sound.resolve_end id)

theorem resolve_lt (sound : g.Sound) {id : NodeId} (lt : id < g.nodes.size) :
    g.resolve id < g.nodes.size := SoundRedirects.follow_lt sound lt _

theorem isLive_resolve (sound : g.Sound) {id : NodeId} (lt : id < g.nodes.size) :
    g.isLive (g.resolve id) = true :=
  (g.isLive_iff _).mpr ⟨sound.resolve_lt lt, sound.resolve_end id⟩

end Sound

end Graph

end TypeLoom
