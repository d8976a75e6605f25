import Mathlib.Logic.Relation
import TypeLoom.Proofs.Operations

/-! Redirects over time. Whatever is done to a graph, a redirect that is there stays as it is, and
new ones come only for nodes that are still live. So chains grow at their ends: a node that was
retired stays retired, and what stood for a node once leads to whatever stands for it later. -/
namespace TypeLoom.Graph
open Relation

def Redirected (g : Graph) (a b : NodeId) : Prop := g.redirects.get? a = some b

namespace Sound
variable {g : Graph} (sound : g.Sound)
include sound

theorem resolve_of_redirected {a b : NodeId} (next : g.Redirected a b) :
    g.resolve a = g.resolve b := by
  obtain ⟨steps, le, last⟩ := SoundRedirects.end_within sound b
  have first : g.resolve a = follow g.redirects g.redirects.size b := by
    rw [resolve, follow, next]
  rw [first, resolve, follow_of_le g.redirects last le,
    follow_of_le g.redirects last (Nat.le_succ_of_le le)]

theorem not_redirected_self (id : NodeId) : ¬ TransGen g.Redirected id id := by
  obtain ⟨steps, last⟩ := sound.ends id
  induction steps generalizing id with
  | zero =>
    intro cycle
    obtain ⟨next, found, -⟩ := TransGen.head'_iff.mp cycle
    exact nomatch last.symm.trans found
  | succ steps ih =>
    intro cycle
    obtain ⟨next, found, back⟩ := TransGen.head'_iff.mp cycle
    have found' : g.redirects.get? id = some next := found
    rw [follow, found'] at last
    -- A cycle through a node is also one through the node it is redirected to.
    exact ih next last (TransGen.tail' back found)

theorem liveCount_eq : g.liveCount = g.liveIds.length := by
  have perm : g.redirects.keys.Perm
      ((List.range g.nodes.size).filter fun id => g.redirects.contains id) := by
    rw [List.perm_ext_iff_of_nodup sound.distinct (List.nodup_range.filter _)]
    intro id
    rw [List.mem_filter, List.mem_range, ← Table.contains_iff_mem_keys]
    refine ⟨fun retired => ⟨?_, retired⟩, fun both => both.2⟩
    obtain ⟨next, found⟩ := (g.redirects.contains_iff_get? id).mp retired
    exact sound.source_lt found
  have parts : g.nodes.size = g.redirects.size + g.liveIds.length := by
    rw [← Table.length_keys, perm.length_eq, liveIds, ← List.length_eq_length_filter_add,
      List.length_range]
  rw [liveCount]
  omega

end Sound

/-- The redirects of a graph lead to live nodes, each within the steps that a walk takes. -/
structure WellRedirected (g : Graph) : Prop where
  acyclic : ∀ id, ¬ TransGen g.Redirected id id
  source_lt : ∀ id, g.redirects.contains id = true → id < g.nodes.size
  resolve_isLive : ∀ id < g.nodes.size, g.isLive (g.resolve id) = true ∧
    ∃ steps ≤ g.redirects.size, follow g.redirects steps id = g.resolve id
  resolve_resolve : ∀ id, g.resolve (g.resolve id) = g.resolve id
  liveCount_eq : g.liveCount = g.liveIds.length

theorem Sound.wellRedirected {g : Graph} (sound : g.Sound) : g.WellRedirected where
  acyclic := sound.not_redirected_self
  source_lt id retired := by
    obtain ⟨next, found⟩ := (g.redirects.contains_iff_get? id).mp retired
    exact sound.source_lt found
  resolve_isLive id lt := by
    obtain ⟨steps, le, last⟩ := SoundRedirects.end_within sound id
    exact ⟨sound.isLive_resolve lt, steps, le,
      (follow_of_le g.redirects last (Nat.le_succ_of_le le)).symm⟩
  resolve_resolve := sound.resolve_resolve
  liveCount_eq := sound.liveCount_eq

/-- All nodes and redirects of `g` are in `g'`. -/
structure Extends (g g' : Graph) : Prop where
  size : g.nodes.size ≤ g'.nodes.size
  redirected : ∀ {a b}, g.Redirected a b → g'.Redirected a b

namespace Extends
variable {g g' g'' : Graph}

theorem refl (g : Graph) : Extends g g := ⟨le_rfl, id⟩

theorem trans (first : Extends g g') (second : Extends g' g'') : Extends g g'' :=
  ⟨first.size.trans second.size, second.redirected ∘ first.redirected⟩

theorem of_redirects (size : g.nodes.size ≤ g'.nodes.size)
    (redirects : g'.redirects = g.redirects) : Extends g g' where
  size := size
  redirected found := by rwa [Redirected, redirects]

theorem of_same (same : SameShapes g g') : Extends g g' :=
  .of_redirects same.size_eq.ge same.redirects

theorem of_insert {old new : NodeId} (size : g.nodes.size ≤ g'.nodes.size)
    (redirects : g'.redirects = g.redirects.insert old new)
    (last : g.redirects.get? old = none) : Extends g g' where
  size := size
  redirected {a b} found := by
    have ne : a ≠ old := by
      rintro rfl
      exact nomatch last.symm.trans found
    rw [Redirected, redirects, Table.get?_insert_of_ne _ _ ne]
    exact found

theorem of_retires {ids : List NodeId} {count : Nat} (retires : Retires g ids count g')
    (live : ∀ id ∈ ids, g.isLive id = true) : Extends g g' where
  size := retires.nodes_size.ge
  redirected {a b} found := by
    have outside : a ∉ ids := by
      intro member
      exact nomatch ((g.isLive_iff a).mp (live a member)).2.symm.trans found
    rw [Redirected, retires.outside a outside]
    exact found

theorem resolve_resolve (ext : Extends g g') (sound : g'.Sound) (id : NodeId) :
    g'.resolve (g.resolve id) = g'.resolve id := by
  have walk : ∀ steps id, g'.resolve (follow g.redirects steps id) = g'.resolve id := by
    intro steps
    induction steps with
    | zero => exact fun id => rfl
    | succ steps ih =>
      intro id
      rw [follow]
      cases found : g.redirects.get? id with
      | none => rfl
      | some next =>
        exact (ih next).trans (sound.resolve_of_redirected (ext.redirected found)).symm
  exact walk _ id

end Extends

theorem supplant_extends {g : Graph} {old : NodeId} (last : g.redirects.get? old = none)
    (node : Node) : Extends g (g.supplant old node).2 := by
  rw [supplant]
  cases g.nodes[old]? with
  | none => exact .of_redirects (by simp [push, touch]) rfl
  | some before =>
    refine @Extends.of_insert g _ old g.nodes.size ?_ ?_ last <;>
      simp [push, touch, forgetDigests]

theorem settle_extends (steps : Nat) (g : Graph) (node : Node) :
    Extends g (settle steps g node).2 := by
  have pushed : ∀ (g : Graph) (node : Node), Extends g (g.push node).2 := fun g node =>
    .of_redirects (by simp [push, touch]) rfl
  induction steps generalizing g node with
  | zero => exact pushed g node
  | succ steps ih =>
    rw [settle]
    cases taken : g.liveByName node.name with
    | none => exact pushed g node
    | some other =>
      have live : g.isLive other = true := by
        simp only [liveByName, bind, Option.bind_eq_some_iff] at taken
        obtain ⟨id, -, before, -, found⟩ := taken
        split_ifs at found with both
        cases found
        exact (Bool.and_eq_true_iff.mp both).1
      dsimp only
      cases g.nodes[other]? with
      | none => exact pushed g node
      | some before =>
        dsimp only
        split_ifs with union better
        · exact supplant_extends ((g.isLive_iff other).mp live).2 node
        · exact .of_redirects le_rfl rfl
        · exact (Extends.of_same (report_quiet g _ _ _).toSameShapes).trans (ih _ _)

theorem register_extends {g g' : Graph} {node : Node} {id : NodeId}
    (done : g.register node = .ok (id, g')) : Extends g g' := by
  obtain ⟨⟨named, g₁⟩, identified, done⟩ := ok_of_bind done
  refine (Extends.of_same (identify_spec identified).2.toSameShapes).trans ?_
  dsimp only at done
  split at done
  · cases done
    exact .refl _
  · split_ifs at done
    · cases done
      exact .of_redirects (by simp [touch]) rfl
    · have settled := settle_extends (g₁.names.size + 1) g₁ named
      rwa [Except.ok.inj done] at settled

theorem replace_extends {g g' : Graph} (sound : g.Sound) {key : String} {node : Node}
    {id : Option NodeId} (done : g.replace key node = .ok (id, g')) : Extends g g' := by
  rw [replace] at done
  split at done
  · cases done
    exact .refl g
  · obtain ⟨⟨named, g₁⟩, identified, done⟩ := ok_of_bind done
    have same := (identify_spec identified).2.toSameShapes
    cases done
    exact (Extends.of_same same).trans (supplant_extends ((same.sound sound).resolve_end _) named)

section consolidate
variable {hash : Hash} {g : Graph}

theorem isLive_of_mem_groups {id : NodeId} (member : id ∈ (groups hash g).flatten) :
    (compared hash g).isLive id = true := by
  rw [(compared_same hash g).isLive_eq]
  exact (mem_liveIds g.prepared id).mp ((groups_perm hash g).mem_iff.mp member)

theorem mergePass_extends (sound : g.Sound) : Extends g (g.mergePass hash).2 := by
  have canonical : ∀ g : Graph, Extends g g.canonicalize := fun g =>
    .of_redirects (canonicalize_size g).ge rfl
  have compared : Extends g (compared hash g) :=
    ((Extends.of_same (forgetDigests_same g)).trans (canonical _)).trans
      (.of_same (compared_same hash g))
  have merged := compared.trans
    (.of_retires (mergeBuckets_groups hash sound) fun _ => isLive_of_mem_groups)
  rw [mergePass_eq]
  dsimp only
  split_ifs
  · exact merged
  · exact merged.trans (canonical _)

theorem Passes.extends {g' : Graph} {count : Nat} (passes : Passes hash g count g')
    (sound : g.Sound) : Extends g g' := by
  induction passes with
  | last none => exact mergePass_extends sound
  | more some rest ih =>
    exact (mergePass_extends sound).trans (ih (mergePass_shrinks hash sound).sound)

theorem consolidate_extends (sound : g.Sound) : Extends g (g.consolidate hash).2 := by
  obtain ⟨before, -, -, passes, result⟩ := consolidate_last hash sound
  rw [result]
  exact (passes.extends sound).trans (.of_same (recordEdges_same _))

end consolidate

namespace Operation
variable (hash : Hash)

theorem outcome_extends {α : Type} {g : Graph} (result : Except MissingIdentity (α × Graph))
    (ext : ∀ {x g'}, result = .ok (x, g') → Extends g g') : Extends g (outcome g result) := by
  cases result with
  | error e => exact .refl g
  | ok pair => exact ext rfl

theorem run_extends {g : Graph} (sound : g.Sound) (op : Operation) : Extends g (op.run hash g) := by
  -- Only replacing, registering and consolidating touch the redirects at all.
  have grows := (run_keeps hash g op).grows sound
  cases op with
  | register node => exact outcome_extends _ register_extends
  | replace key node => exact outcome_extends _ (replace_extends sound)
  | unionBase arity =>
    refine outcome_extends _ fun {id g'} done => ?_
    rw [Graph.unionBase] at done
    split at done
    · cases done
      exact .refl g
    · obtain ⟨⟨base, g₁⟩, registered, done⟩ := ok_of_bind done
      cases done
      exact (register_extends registered).trans (.of_redirects le_rfl rfl)
  | primitive kind =>
    refine .of_redirects grows ?_
    simp only [run, Graph.primitive]
    split <;> rfl
  | addConstant constant =>
    refine .of_redirects grows ?_
    simp only [run, Graph.addConstant, constantsNode]
    split <;> rfl
  | findUnion member hint => exact .of_same (findUnion_quiet g member hint).toSameShapes
  | digest id =>
    obtain ⟨cache, frame⟩ := digest_frame hash g id
    refine .of_redirects grows ?_
    rw [run, frame]
  | consolidate => exact consolidate_extends sound
  | prune => exact .of_same (prune_quiet g).toSameShapes
  | _ => exact .of_redirects grows rfl

theorem runAll_extends {g : Graph} (sound : g.Sound) (ops : List Operation) :
    Extends g (runAll hash g ops) := by
  induction ops generalizing g with
  | nil => exact .refl g
  | cons op rest ih =>
    exact (run_extends hash sound op).trans (ih ((run_keeps hash g op).sound sound))

end Operation

/-- What has become of the nodes of `g` by the time of `g'`. -/
structure Permanent (g g' : Graph) : Prop where
  retired : ∀ id < g.nodes.size, g.isLive id = false → g'.isLive id = false
  resolve : ∀ id, g'.resolve id = g'.resolve (g.resolve id)

theorem Extends.permanent {g g' : Graph} (ext : Extends g g') (sound : g'.Sound) :
    Permanent g g' where
  retired id lt dead := by
    have retired : g.redirects.contains id = true := by simpa [isLive, lt] using dead
    obtain ⟨next, found⟩ := (g.redirects.contains_iff_get? id).mp retired
    have still : g'.redirects.get? id = some next := ext.redirected found
    simp [isLive, Table.contains_eq_isSome, still]
  resolve id := (ext.resolve_resolve sound id).symm

open Operation in
/-- After any operations redirects are well-founded and lead to live nodes, and they are kept by any
operations that follow. -/
theorem wellRedirected_runAll (hash : Hash) (ops later : List Operation) :
    (runAll hash .empty ops).WellRedirected ∧
      Permanent (runAll hash .empty ops) (runAll hash (runAll hash .empty ops) later) := by
  obtain ⟨sound, cache⟩ := runAll_sound hash ops empty_sound (.of_empty rfl)
  obtain ⟨soundLater, -⟩ := runAll_sound hash later sound cache
  exact ⟨sound.wellRedirected, (runAll_extends hash sound later).permanent soundLater⟩

end TypeLoom.Graph
