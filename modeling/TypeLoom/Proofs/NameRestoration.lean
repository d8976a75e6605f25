import TypeLoom.Conversion
import TypeLoom.Proofs.DisplayNames
import TypeLoom.Proofs.IngestSteps
import TypeLoom.Proofs.Retention

/-! Names after a pruning. Nodes get their former names back in the order of their numbers. A name
that was given up belongs to an earlier node, so when it is the turn of a node, the holder of its
former name will not be renamed any more: either the name is free, or it stays taken. -/
namespace TypeLoom.Graph

def Tag.restored (former : String) (t : Tag) : Tag := { t with name := former, formerName := none }

theorem restored_tags {g : Graph} {id : NodeId} {node : Node} (found : g.nodes[id]? = some node)
    (former : String) : ((g.rename id former).modifyNode id
      fun n => { n with formerName := none }).tags = g.tags.modify id (Tag.restored former) := by
  refine Array.ext_getElem? fun other => ?_
  rw [rename, found]
  dsimp only
  rw [tags_getElem?, modifyNode, Array.getElem?_modify]
  dsimp only
  rw [freeName_nodes, modifyNode, Array.getElem?_modify, Array.getElem?_modify, tags_getElem?]
  split_ifs
  · simp only [Option.map_map]
    rfl
  · rfl

theorem restored_self {tags : Array Tag} {id : NodeId} {t : Tag} (found : tags[id]? = some t)
    (former : String) : (tags.modify id (Tag.restored former))[id]? = some (t.restored former) := by
  rw [Array.getElem?_modify, if_pos rfl, found, Option.map_some]

theorem restored_of_ne (tags : Array Tag) {id other : NodeId} (ne : other ≠ id) (former : String) :
    (tags.modify id (Tag.restored former))[other]? = tags[other]? := by
  rw [Array.getElem?_modify, if_neg ne.symm]

theorem restored_cases {tags : Array Tag} {id other : NodeId} {t u : Tag} {former : String}
    (found : tags[id]? = some t)
    (there : (tags.modify id (Tag.restored former))[other]? = some u) :
    other = id ∧ u = t.restored former ∨ other ≠ id ∧ tags[other]? = some u := by
  by_cases same : other = id
  · rw [same, restored_self found, Option.some_inj] at there
    exact .inl ⟨same, there.symm⟩
  · rw [restored_of_ne tags same] at there
    exact .inr ⟨same, there⟩

/-- The retained nodes while names are given back: `taken` are their names, the nodes of `rest` are
still to come and as they were at first, and a name that one of the others could not get back
belongs to a node that will keep it. -/
structure Restoring (kept : List NodeId) (first tags : Array Tag) (taken : List String)
    (rest : List NodeId) : Prop where
  taken : ∀ name, name ∈ taken ↔ ∃ id ∈ kept, ∃ t, tags[id]? = some t ∧ t.name = name
  apart : ∀ a ∈ kept, ∀ b ∈ kept, ∀ s t, tags[a]? = some s → tags[b]? = some t →
    s.isNamed = true → t.isNamed = true → s.name = t.name → a = b
  reserved : ∀ id ∈ kept, ∀ t, tags[id]? = some t → t.isNamed = false →
    t.formerName = none ∧ Reserved t.name
  pending : ∀ id ∈ rest, id ∈ kept ∧ tags[id]? = first[id]?
  refused : ∀ id ∈ kept, id ∉ rest → ∀ t former, tags[id]? = some t → t.formerName = some former →
    ∃ other ∈ kept, other ≠ id ∧ ∃ holder, tags[other]? = some holder ∧ holder.name = former ∧
      (holder.formerName = none ∨ other ∉ rest)

namespace Restoring
variable {kept : List NodeId} {first tags : Array Tag} {taken : List String} {id : NodeId}
  {rest : List NodeId} (restoring : Restoring kept first tags taken (id :: rest))
include restoring

theorem advance (own : ∀ t former, tags[id]? = some t → t.formerName = some former →
    ∃ other ∈ kept, other ≠ id ∧ ∃ holder, tags[other]? = some holder ∧ holder.name = former ∧
      (holder.formerName = none ∨ other ∉ rest)) : Restoring kept first tags taken rest where
  taken := restoring.taken
  apart := restoring.apart
  reserved := restoring.reserved
  pending other later := restoring.pending other (List.mem_cons_of_mem id later)
  refused other inside done t former found known := by
    by_cases same : other = id
    · subst same
      exact own t former found known
    · have before : other ∉ id :: rest := by simp [same, done]
      obtain ⟨there, isKept, ne, holder, isHolder, named, stays⟩ :=
        restoring.refused other inside before t former found known
      refine ⟨there, isKept, ne, holder, isHolder, named, stays.imp_right fun absent later => ?_⟩
      exact absent (List.mem_cons_of_mem id later)

theorem first_eq {t : Tag} (found : tags[id]? = some t) : first[id]? = some t := by
  rw [← (restoring.pending id List.mem_cons_self).2]
  exact found

variable (labelled : Labelled first) (ascending : (id :: rest).Pairwise (· < ·)) {t : Tag}
  {former : String} (found : tags[id]? = some t) (known : t.formerName = some former)
include labelled ascending found known

/-- The turn of a node whose former name is taken. The node that has it comes first, so it has had
its own turn, or it never gave up a name. -/
theorem refuse (inUse : former ∈ taken) : Restoring kept first tags taken rest := by
  apply restoring.advance
  intro u given found' known'
  rw [found, Option.some_inj] at found'
  rw [← found', known, Option.some_inj] at known'
  subst known'
  obtain ⟨other, isKept, holder, there, named⟩ := (restoring.taken former).mp inUse
  have here := restoring.first_eq found
  -- Nodes still to come that gave up a name have numbers on both sides of `id`.
  have earlier (later : other ∈ id :: rest) (gave : holder.formerName ≠ none) : other < id := by
    obtain ⟨given, isGiven⟩ := Option.ne_none_iff_exists'.mp gave
    have first := (restoring.pending other later).2
    rw [there] at first
    exact labelled.holder_lt here known first.symm isGiven named
  refine ⟨other, isKept, fun same => ?_, holder, there, named, ?_⟩
  · subst same
    rw [found, Option.some_inj] at there
    have gave : holder.formerName ≠ none := by simp [← there, known]
    exact (earlier List.mem_cons_self gave).false
  · by_contra moves
    rw [not_or, not_not] at moves
    have lt := earlier (List.mem_cons_of_mem id moves.2) moves.1
    exact lt.not_gt (List.rel_of_pairwise_cons ascending moves.2)

omit ascending in
theorem eq_of_name {other : NodeId} (inside : other ∈ kept) {u : Tag}
    (there : tags[other]? = some u) (same : u.name = t.name) : other = id := by
  have here := restoring.first_eq found
  have isKept := (restoring.pending id List.mem_cons_self).1
  cases named : u.isNamed with
  | true =>
    exact restoring.apart other inside id isKept u t there found named
      (labelled.isNamed_of_formerName here known) same
  | false =>
    have reserved := (restoring.reserved other inside u there named).2
    rw [same] at reserved
    exact absurd reserved (labelled.displaced id t former here known).1

omit ascending in
theorem mem_taken_restored (name : String) : name ∈ former :: taken.filter (· ≠ t.name) ↔
    ∃ other ∈ kept, ∃ u, (tags.modify id (Tag.restored former))[other]? = some u ∧
      u.name = name := by
  have isKept := (restoring.pending id List.mem_cons_self).1
  constructor
  · intro member
    rcases List.mem_cons.mp member with rfl | old
    · exact ⟨id, isKept, _, restored_self found name, rfl⟩
    · rw [List.mem_filter, decide_eq_true_eq, restoring.taken] at old
      obtain ⟨⟨other, inside, u, there, named⟩, ne⟩ := old
      have apart : other ≠ id := by
        intro same
        rw [same, found, Option.some_inj] at there
        exact ne (there ▸ named).symm
      exact ⟨other, inside, u, (restored_of_ne tags apart former).trans there, named⟩
  · intro member
    obtain ⟨other, inside, u, there, rfl⟩ := member
    rcases restored_cases found there with ⟨-, rfl⟩ | ⟨ne, old⟩
    · exact List.mem_cons_self
    · refine List.mem_cons_of_mem former (List.mem_filter.mpr ⟨?_, ?_⟩)
      · exact (restoring.taken u.name).mpr ⟨other, inside, u, old, rfl⟩
      · rw [decide_eq_true_eq]
        exact fun gone => ne (restoring.eq_of_name labelled found known inside old gone)

theorem restore (free : former ∉ taken) :
    Restoring kept first (tags.modify id (Tag.restored former))
    (former :: taken.filter (· ≠ t.name)) rest := by
  have fresh {other : NodeId} (inside : other ∈ kept) {u : Tag} (there : tags[other]? = some u) :
      u.name ≠ former :=
    fun same => free ((restoring.taken former).mpr ⟨other, inside, u, there, same⟩)
  constructor
  case taken => exact restoring.mem_taken_restored labelled found known
  case apart =>
    intro a inA b inB s u foundA foundB namedA namedB name
    rcases restored_cases found foundA with ⟨rfl, rfl⟩ | ⟨-, oldA⟩ <;>
      rcases restored_cases found foundB with ⟨rfl, rfl⟩ | ⟨-, oldB⟩
    · rfl
    · exact absurd name.symm (fresh inB oldB)
    · exact absurd name (fresh inA oldA)
    · exact restoring.apart a inA b inB s u oldA oldB namedA namedB name
  case reserved =>
    intro other inside u there unnamed
    rcases restored_cases found there with ⟨-, rfl⟩ | ⟨-, old⟩
    · have isNamed := labelled.isNamed_of_formerName (restoring.first_eq found) known
      rw [Tag.restored, isNamed] at unnamed
      cases unnamed
    · exact restoring.reserved other inside u old unnamed
  case pending =>
    intro other later
    have lt : id < other := List.rel_of_pairwise_cons ascending later
    rw [restored_of_ne tags lt.ne']
    exact restoring.pending other (List.mem_cons_of_mem id later)
  case refused =>
    intro other inside done u given there gave
    rcases restored_cases found there with ⟨-, rfl⟩ | ⟨ne, old⟩
    · cases gave
    · have before : other ∉ id :: rest := by simp [ne, done]
      obtain ⟨place, inKept, apart, holder, isHolder, named, stays⟩ :=
        restoring.refused other inside before u given old gave
      -- A node that keeps its name is not the one whose turn it is.
      have elsewhere : place ≠ id := by
        intro same
        rw [same, found, Option.some_inj] at isHolder
        rcases stays with never | absent
        · rw [← isHolder, known] at never
          cases never
        · exact absent (same ▸ List.mem_cons_self)
      exact ⟨place, inKept, apart, holder, (restored_of_ne tags elsewhere former).trans isHolder,
        named, stays.imp_right fun absent later => absent (List.mem_cons_of_mem id later)⟩

end Restoring

theorem restoreNames_restoring {kept : List NodeId} {first : Array Tag} (labelled : Labelled first)
    {g : Graph} {taken : List String} {rest : List NodeId} (ascending : rest.Pairwise (· < ·))
    (restoring : Restoring kept first g.tags taken rest) :
    ∃ last, Restoring kept first (restoreNames g taken rest).tags last [] := by
  induction rest generalizing g taken with
  | nil => exact ⟨taken, restoring⟩
  | cons id rest ih =>
    have later := ascending.of_cons
    rw [restoreNames]
    cases found : g.nodes[id]? with
    | none =>
      refine ih later (restoring.advance fun t former there => ?_)
      simp [tags_getElem?, found] at there
    | some node =>
      have tag : g.tags[id]? = some node.tag := by rw [tags_getElem?, found, Option.map_some]
      dsimp only
      cases known : node.formerName with
      | none =>
        refine ih later (restoring.advance fun t former there gave => ?_)
        rw [tag, Option.some_inj] at there
        rw [← there, Node.tag, known] at gave
        cases gave
      | some former =>
        dsimp only
        split_ifs with inUse
        · exact ih later (restoring.refuse labelled ascending tag known
            (List.contains_iff_mem.mp inUse))
        · refine ih later ?_
          rw [restored_tags found]
          exact restoring.restore labelled ascending tag known
            fun member => inUse (List.contains_iff_mem.mpr member)

theorem restoreNames_of_taken {g : Graph} {taken : List String} {ids : List NodeId}
    (inUse : ∀ id ∈ ids, ∀ node former, g.nodes[id]? = some node → node.formerName = some former →
      former ∈ taken) : restoreNames g taken ids = g := by
  induction ids with
  | nil => rfl
  | cons id rest ih =>
    have done := ih fun other later => inUse other (List.mem_cons_of_mem id later)
    rw [restoreNames]
    cases found : g.nodes[id]? with
    | none => exact done
    | some node =>
      dsimp only
      cases known : node.formerName with
      | none => exact done
      | some former =>
        dsimp only
        rw [if_pos (List.contains_iff_mem.mpr
          (inUse id List.mem_cons_self node former found known))]
        exact done

theorem marked_tags (g : Graph) : g.marked.tags = g.tags :=
  markDescendants_map (fun _ => rfl) g.recordEdges g.recordEdges.reachable

theorem retainedIds_prune (g : Graph) : g.prune.2.retainedIds = g.marked.retainedIds := by
  rw [prune_eq]
  exact retainedIds_congr (restoreNames_quiet _ _ _).toSameShapes (restoreNames_retained _ _ _)

theorem tag_of_mem_retainedNodes {g : Graph} {entry : NodeId × Node}
    (kept : entry ∈ g.retainedNodes) :
    entry.1 ∈ g.retainedIds ∧ g.tags[entry.1]? = some entry.2.tag := by
  refine ⟨mem_retainedIds.mpr ⟨entry.2, kept⟩, ?_⟩
  rw [tags_getElem?, (mem_retainedNodes.mp kept).1.2, Option.map_some]

theorem node_of_mem_retainedIds {g : Graph} {id : NodeId} (kept : id ∈ g.retainedIds) {t : Tag}
    (found : g.tags[id]? = some t) : ∃ node, (id, node) ∈ g.retainedNodes ∧ node.tag = t := by
  obtain ⟨node, inside⟩ := mem_retainedIds.mp kept
  have own := (tag_of_mem_retainedNodes inside).2
  rw [found, Option.some_inj] at own
  exact ⟨node, inside, own.symm⟩

theorem mem_retainedNames (g : Graph) (name : String) :
    name ∈ (g.retainedNodes.map fun entry => entry.2.name) ↔
      ∃ id ∈ g.retainedIds, ∃ t, g.tags[id]? = some t ∧ t.name = name := by
  rw [List.mem_map]
  constructor
  · intro member
    obtain ⟨entry, inside, named⟩ := member
    obtain ⟨kept, found⟩ := tag_of_mem_retainedNodes inside
    exact ⟨entry.1, kept, entry.2.tag, found, named⟩
  · intro member
    obtain ⟨id, kept, t, found, named⟩ := member
    obtain ⟨node, inside, rfl⟩ := node_of_mem_retainedIds kept found
    exact ⟨(id, node), inside, named⟩

theorem restoring_retained {g : Graph} (labelled : Labelled g.tags) : Restoring g.retainedIds g.tags
    g.tags (g.retainedNodes.map fun entry => entry.2.name) g.retainedIds where
  taken := mem_retainedNames g
  apart a _ b _ := labelled.apart a b
  reserved id _ := labelled.reserved id
  pending _ inside := ⟨inside, rfl⟩
  refused _ inside outside := absurd inside outside

/-- Names of retained nodes are apart, and every name that is still given up belongs to another of
them. -/
structure Restored (g : Graph) : Prop where
  apart : ∀ a ∈ g.retainedNodes, ∀ b ∈ g.retainedNodes, a.2.shape.isNamed = true →
    b.2.shape.isNamed = true → a.2.name = b.2.name → a.1 = b.1
  refused : ∀ a ∈ g.retainedNodes, ∀ former, a.2.formerName = some former →
    ∃ b ∈ g.retainedNodes, b.1 ≠ a.1 ∧ b.2.name = former

theorem prune_restored {g : Graph} (labelled : Labelled g.tags) : g.prune.2.Restored := by
  rw [← marked_tags] at labelled
  obtain ⟨taken, done⟩ := restoreNames_restoring labelled g.marked.retainedIds_ascending
    (restoring_retained labelled)
  rw [← map_fst_retainedNodes g.marked, ← prune_eq, map_fst_retainedNodes,
    ← retainedIds_prune] at done
  constructor
  case apart =>
    intro a inA b inB
    obtain ⟨keptA, foundA⟩ := tag_of_mem_retainedNodes inA
    obtain ⟨keptB, foundB⟩ := tag_of_mem_retainedNodes inB
    exact done.apart a.1 keptA b.1 keptB a.2.tag b.2.tag foundA foundB
  case refused =>
    intro a inside former known
    obtain ⟨kept, found⟩ := tag_of_mem_retainedNodes inside
    obtain ⟨other, there, ne, holder, isHolder, named, -⟩ :=
      done.refused a.1 kept List.not_mem_nil a.2.tag former found known
    obtain ⟨node, isKept, rfl⟩ := node_of_mem_retainedIds there isHolder
    exact ⟨(other, node), isKept, ne, named⟩

theorem prune_prune {g : Graph} (restored : g.prune.2.Restored) :
    g.prune.2.prune.2 = g.prune.2.marked := by
  have retained : g.prune.2.marked.retained = g.prune.2.retained := by
    rw [prune_retained, ← prune_reachable]
    rfl
  have ids : g.prune.2.marked.retainedIds = g.prune.2.retainedIds :=
    retainedIds_congr (marked_quiet _).toSameShapes retained
  rw [prune_eq g.prune.2]
  apply restoreNames_of_taken
  intro id kept node former found known
  rw [map_fst_retainedNodes, ids] at kept
  have tag : g.prune.2.tags[id]? = some node.tag := by
    rw [← marked_tags, tags_getElem?, found, Option.map_some]
  obtain ⟨own, inside, same⟩ := node_of_mem_retainedIds kept tag
  obtain ⟨b, there, -, named⟩ :=
    restored.refused (id, own) inside former ((congrArg Tag.formerName same).trans known)
  obtain ⟨isKept, isTag⟩ := tag_of_mem_retainedNodes there
  rw [mem_retainedNames, ids, marked_tags]
  exact ⟨b.1, isKept, b.2.tag, isTag, named⟩

theorem map_name_of_tags {g g' : Graph} (same : g'.tags = g.tags) :
    g'.nodes.map Node.name = g.nodes.map Node.name := by
  have names (g : Graph) : g.nodes.map Node.name = g.tags.map Tag.name := by
    rw [tags, Array.map_map]
    rfl
  rw [names, names, same]

end TypeLoom.Graph

namespace TypeLoom.Conversion
open TypeLoom.Graph

theorem buildWith_eq_ok {hash : Hash} {settings : Settings} {facts : List Fact} {g : Graph}
    (built : buildWith hash settings facts = .ok g) :
    g = (((Graph.empty.ingest settings facts).2.consolidate hash).2.prune).2 := by
  rw [buildWith] at built
  split at built
  · cases built
  · next ingested =>
    rw [ingested]
    exact (Except.ok.inj built).symm

/-- After a conversion retained nodes have different names, a name that a node could not get back is
that of another retained node, and to prune again does not change a name. -/
theorem buildWith_restored {hash : Hash} {settings : Settings} {facts : List Fact} {g : Graph}
    (built : buildWith hash settings facts = .ok g) :
    g.Restored ∧ g.prune.2.nodes.map Node.name = g.nodes.map Node.name := by
  have named := Steps.named (ingest_steps settings facts) empty_intact empty_named
  have labelled := named.toLabelled
  rw [← consolidate_tags hash] at labelled
  have restored := prune_restored labelled
  rw [buildWith_eq_ok built]
  refine ⟨restored, map_name_of_tags ?_⟩
  rw [prune_prune restored, marked_tags]

def checksum : Hash := fun text =>
  toString (text.foldl (fun sum byte => (31 * sum + byte.toNat) % 1000003) 7)

/-- Three records of one name, of which the first is not part of the output. -/
def namesakes : List Fact := [
  .ofType "User" (.object [] []),
  { Fact.ofType "User" (.object [{ name := "id", type := .primitive .number }] []) with
    isPublic := true },
  { Fact.ofType "User" (.object [{ name := "mail", type := .primitive .string }] []) with
    isPublic := true }]

/-- The second record gets the name back, the third finds it taken again. -/
theorem buildWith_restored_namesakes : ∃ g, buildWith checksum {} namesakes = .ok g ∧
    (g.retainedNodes.map fun entry => (entry.2.name, entry.2.formerName)) =
      [("User", none), ("number", none), ("User2", some "User"), ("string", none)] ∧
    g.Restored ∧ g.prune.2.nodes.map Node.name = g.nodes.map Node.name := by
  have names : (buildWith checksum {} namesakes).map
      (fun g => g.retainedNodes.map fun entry => (entry.2.name, entry.2.formerName)) =
        .ok [("User", none), ("number", none), ("User2", some "User"), ("string", none)] := by
    decide +kernel
  cases built : buildWith checksum {} namesakes with
  | error cause =>
    rw [built] at names
    cases names
  | ok g =>
    rw [built] at names
    exact ⟨g, rfl, Except.ok.inj names, buildWith_restored built⟩

end TypeLoom.Conversion
