import TypeLoom.Proofs.Growth
import TypeLoom.Proofs.Operations

/-! Display names before anything is merged, and what becomes of them afterwards. Nodes other than
primitive types and the constants have different names. A node that had to give up its name comes
after a node that has this name, so names are given up along the order of the nodes. Merging leaves
all this as it is. -/
namespace TypeLoom.Graph

/-- What the names of a node and of others are about. -/
structure Tag where
  name : String
  formerName : Option String
  isNamed : Bool

def Node.tag (n : Node) : Tag := ⟨n.name, n.formerName, n.shape.isNamed⟩

/-- Names that nodes have by their kind. -/
def Reserved (name : String) : Prop := (∃ kind : Primitive, name = kind.label) ∨ name = constantsKey

theorem not_reserved_renamed (node : Node) : ¬ Reserved (renamed node) := by
  rintro (⟨kind, same⟩ | same)
  · exact renamed_ne_label node kind same
  · exact renamed_ne_constantsKey node same

/-- Names differ where they should, and every name that was given up is that of an earlier node. -/
structure Labelled (tags : Array Tag) : Prop where
  apart : ∀ (a b : NodeId) (s t : Tag), tags[a]? = some s → tags[b]? = some t → s.isNamed = true →
    t.isNamed = true → s.name = t.name → a = b
  reserved : ∀ (id : NodeId) (t : Tag), tags[id]? = some t → t.isNamed = false →
    t.formerName = none ∧ Reserved t.name
  displaced : ∀ (id : NodeId) (t : Tag) (former : String), tags[id]? = some t →
    t.formerName = some former → ¬ Reserved t.name ∧
      ∃ earlier holder, earlier < id ∧ tags[earlier]? = some holder ∧ holder.name = former

namespace Labelled
variable {tags : Array Tag} (labelled : Labelled tags) {id : NodeId} {t : Tag} {former : String}
  (found : tags[id]? = some t) (known : t.formerName = some former)
include labelled found known

theorem isNamed_of_formerName : t.isNamed = true := by
  cases named : t.isNamed with
  | true => rfl
  | false =>
    rw [(labelled.reserved id t found named).1] at known
    cases known

/-- The node that a name was given up for comes first, if it gave up a name too. -/
theorem holder_lt {other : NodeId} {u : Tag} {given : String} (found' : tags[other]? = some u)
    (known' : u.formerName = some given) (same : u.name = former) : other < id := by
  obtain ⟨-, earlier, holder, lt, there, isHolder⟩ := labelled.displaced id t former found known
  obtain ⟨free, -⟩ := labelled.displaced other u given found' known'
  have named : holder.isNamed = true := by
    cases isNamed : holder.isNamed with
    | true => rfl
    | false =>
      have taken := (labelled.reserved earlier holder there isNamed).2
      rw [isHolder, ← same] at taken
      exact absurd taken free
  have here : other = earlier := labelled.apart other earlier u holder found' there
    (labelled.isNamed_of_formerName found' known') named (same.trans isHolder.symm)
  exact here ▸ lt

end Labelled

def tags (g : Graph) : Array Tag := g.nodes.map Node.tag

theorem tags_getElem? (g : Graph) (id : NodeId) : g.tags[id]? = (g.nodes[id]?).map Node.tag := by
  rw [tags, Array.getElem?_map]

/-- The table of names has every name, and only names of nodes. -/
structure Named (g : Graph) : Prop extends Labelled g.tags where
  listed : ∀ t ∈ g.tags, g.names.contains t.name = true
  entries : ∀ name id, g.names.get? name = some id → ∃ t, g.tags[id]? = some t ∧ t.name = name

theorem empty_named : empty.Named where
  apart := by simp [empty, tags]
  reserved := by simp [empty, tags]
  displaced := by simp [empty, tags]
  listed := by simp [empty, tags]
  entries := by simp [empty]

theorem Named.of_tags {g g' : Graph} (named : g.Named) (tags : g'.tags = g.tags)
    (names : g'.names = g.names) : g'.Named := by
  refine ⟨tags ▸ named.toLabelled, ?_, ?_⟩
  · rw [tags, names]
    exact named.listed
  · rw [tags, names]
    exact named.entries

theorem Named.isSome_liveByName {g : Graph} (named : g.Named) (intact : g.Intact) (name : String) :
    (g.liveByName name).isSome = true ↔ g.names.contains name = true := by
  rw [Table.contains_iff_get?, Option.isSome_iff_exists]
  refine exists_congr fun id => ?_
  rw [liveByName_eq_some_iff]
  refine ⟨fun known => known.1, fun found => ?_⟩
  obtain ⟨t, there, isName⟩ := named.entries name id found
  rw [tags_getElem?] at there
  obtain ⟨node, inside, rfl⟩ := Option.map_eq_some_iff.mp there
  exact ⟨found, (intact.isLive_iff_lt id).mpr (Array.getElem?_eq_some_iff.mp inside).1, node,
    inside, isName⟩

/-- A tag that can come next: its name is new if the node is known by its name, and a name that it
gave up is there. -/
structure Joins (tags : Array Tag) (t : Tag) : Prop where
  fresh : t.isNamed = true → ∀ s ∈ tags, s.name ≠ t.name
  reserved : t.isNamed = false → t.formerName = none ∧ Reserved t.name
  displaced : ∀ former, t.formerName = some former → ¬ Reserved t.name ∧
    ∃ s ∈ tags, s.name = former

theorem Labelled.push {tags : Array Tag} (labelled : Labelled tags) {t : Tag}
    (joins : Joins tags t) : Labelled (tags.push t) where
  apart a b s u foundS foundU namedS namedU same := by
    rw [Array.getElem?_push] at foundS foundU
    split_ifs at foundS foundU with lastS lastU lastU
    · rw [lastS, lastU]
    · cases foundS
      exact absurd same.symm (joins.fresh namedS u (Array.mem_of_getElem? foundU))
    · cases foundU
      exact absurd same (joins.fresh namedU s (Array.mem_of_getElem? foundS))
    · exact labelled.apart a b s u foundS foundU namedS namedU same
  reserved id u found unnamed := by
    rw [Array.getElem?_push] at found
    split_ifs at found with last
    · cases found
      exact joins.reserved unnamed
    · exact labelled.reserved id u found unnamed
  displaced id u former found known := by
    rw [Array.getElem?_push] at found
    split_ifs at found with last
    · cases found
      obtain ⟨free, s, inside, isName⟩ := joins.displaced former known
      obtain ⟨earlier, there⟩ := Array.mem_iff_getElem?.mp inside
      have lt := (Array.getElem?_eq_some_iff.mp there).1
      refine ⟨free, earlier, s, last ▸ lt, ?_, isName⟩
      rw [Array.getElem?_push, if_neg lt.ne]
      exact there
    · obtain ⟨free, earlier, holder, lt, there, isName⟩ :=
        labelled.displaced id u former found known
      refine ⟨free, earlier, holder, lt, ?_, isName⟩
      rw [Array.getElem?_push, if_neg (Array.getElem?_eq_some_iff.mp there).1.ne]
      exact there

theorem push_tags (g : Graph) (node : Node) : (g.push node).2.tags = g.tags.push node.tag :=
  Array.map_push

theorem Named.of_push {g g' : Graph} (named : g.Named) {node : Node}
    (joins : Joins g.tags node.tag) (nodes : g'.tags = (g.push node).2.tags)
    (names : g'.names = (g.push node).2.names) : g'.Named := by
  have size : g.tags.size = g.nodes.size := Array.size_map
  -- The node is in the table unless it is primitive and its name is there already.
  have lookup (name : String) : g'.names.get? name = g.names.get? name ∨
      (name = node.name ∧ g'.names.get? name = some g.nodes.size) := by
    rw [names, push]
    dsimp only [touch]
    split_ifs
    · exact .inl rfl
    · rw [Table.get?_insert]
      split_ifs with same
      · exact .inr ⟨same, rfl⟩
      · exact .inl rfl
  have kept (name : String) (known : g.names.contains name = true) :
      g'.names.contains name = true := by
    rw [Table.contains_eq_isSome] at known ⊢
    rcases lookup name with same | ⟨-, new⟩
    · rw [same, known]
    · rw [new, Option.isSome_some]
  rw [push_tags] at nodes
  refine ⟨nodes ▸ named.toLabelled.push joins, ?_, ?_⟩
  · intro t member
    rw [nodes, Array.mem_push] at member
    rcases member with old | rfl
    · exact kept _ (named.listed t old)
    · by_cases known : g.names.contains node.name = true
      · exact kept _ known
      · rw [names, push]
        dsimp only [touch]
        rw [Bool.not_eq_true] at known
        rw [known, Bool.and_false, if_neg Bool.false_ne_true]
        exact (contains_insert _ _ _ _).mpr (.inl rfl)
  · intro name id found
    rw [nodes]
    rcases lookup name with same | ⟨isName, new⟩
    · rw [same] at found
      obtain ⟨t, there, isTag⟩ := named.entries name id found
      refine ⟨t, ?_, isTag⟩
      rw [Array.getElem?_push, if_neg (Array.getElem?_eq_some_iff.mp there).1.ne]
      exact there
    · rw [new, Option.some_inj] at found
      refine ⟨node.tag, ?_, isName.symm⟩
      rw [Array.getElem?_push, if_pos (found.symm.trans size.symm)]

theorem Placed.joins {g : Graph} {node : Node} (placed : g.Placed node) (intact : g.Intact)
    (named : g.Named) : Joins g.tags node.tag where
  fresh _ t inside same := by
    have listed : g.names.contains node.name = true := by
      have known := named.listed t inside
      rwa [same] at known
    have taken := (named.isSome_liveByName intact node.name).mpr listed
    rw [placed.free] at taken
    cases taken
  reserved unnamed := by
    have isNamed : node.tag.isNamed = true := placed.named
    rw [isNamed] at unnamed
    cases unnamed
  displaced former known := by
    obtain ⟨taken, before, isName⟩ := placed.former former known
    obtain ⟨id, found⟩ := (g.names.contains_iff_get? former).mp
      ((named.isSome_liveByName intact former).mp taken)
    obtain ⟨holder, there, isHolder⟩ := named.entries former id found
    refine ⟨?_, holder, Array.mem_of_getElem? there, isHolder⟩
    have same : node.tag.name = renamed before := isName
    rw [same]
    exact not_reserved_renamed before

theorem joins_of_reserved {tags : Array Tag} {t : Tag} (unnamed : t.isNamed = false)
    (former : t.formerName = none) (reserved : Reserved t.name) : Joins tags t := by
  refine ⟨?_, fun _ => ⟨former, reserved⟩, ?_⟩
  · rw [unnamed]
    exact fun named => absurd named Bool.false_ne_true
  · simp [former]

theorem Shape.isNamed_of_label {s t : Shape} (same : s.label = t.label) :
    s.isNamed = t.isNamed := by
  cases s <;> cases t <;> simp [Shape.label, Shape.isNamed] at same ⊢

theorem modifyShape_tags (g : Graph) (id : NodeId) {f : Shape → Shape}
    (label : ∀ shape, (f shape).label = shape.label) : (g.modifyShape id f).tags = g.tags := by
  have keep (n : Node) : { n with shape := f n.shape }.tag = n.tag := by
    simp only [Node.tag, Shape.isNamed_of_label (label n.shape)]
  exact map_modifyNode g (g.resolve id) keep

theorem Step.named {g g' : Graph} (step : Step g g') (intact : g.Intact) (named : g.Named) :
    g'.Named := by
  cases step with
  | note _ _ | enlist _ _ => exact named.of_tags rfl rfl
  | primitive kind => exact named.of_push (joins_of_reserved rfl rfl (.inl ⟨kind, rfl⟩)) rfl rfl
  | constants _ => exact named.of_push (joins_of_reserved rfl rfl (.inr rfl)) rfl rfl
  | append placed _ => exact named.of_push (placed.joins intact named) rfl rfl
  | base placed _ => exact named.of_push (placed.joins intact named) rfl rfl
  | reshape id reshapes => exact named.of_tags (modifyShape_tags g id reshapes.label) rfl

theorem Steps.named {g g' : Graph} (steps : Steps g g') (intact : g.Intact) (named : g.Named) :
    g'.Named := by
  induction steps with
  | refl => exact named
  | tail before step ih => exact step.named (Steps.intact before intact) ih

theorem tag_lasting : Lasting Node.tag where
  flags _ _ := rfl
  references node f := by
    have isNamed : (node.shape.mapNodes f).isNamed = node.shape.isNamed := by
      cases node.shape <;> rfl
    simp only [Node.tag, isNamed]

theorem consolidate_tags (hash : Hash) (g : Graph) : (g.consolidate hash).2.tags = g.tags :=
  consolidate_map tag_lasting hash g

end TypeLoom.Graph
