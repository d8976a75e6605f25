import Mathlib.Data.List.Forall2
import Mathlib.Data.List.Permutation
import Mathlib.Logic.Equiv.Defs
import Mathlib.Tactic.IntervalCases
import TypeLoom.Proofs.Operations

/-! Digests cover shapes and nothing else. A matching of the live nodes of two graphs may renumber
nodes, reorder properties and change whatever a shape only carries along; as long as references go
from matched nodes to matched nodes, matched nodes have equal digests. Cycles make no difference:
both walks come back to their stacks at the same time. -/
namespace TypeLoom

section uses
variable (same : NodeId → NodeId → Prop)

/-- The same target, nodes being the same if `same` says so. -/
inductive Target.Matches : Target → Target → Prop
  | node {a b : NodeId} (matched : same a b) : Matches (.node a) (.node b)
  | generic (name : String) : Matches (.generic name) (.generic name)

/-- The same use, nodes aside. -/
inductive TypeUse.Matches : TypeUse → TypeUse → Prop
  | intro {target target' : Target} {depth : Nat} {arguments arguments' : List TypeUse}
      (targets : Target.Matches same target target')
      (all : List.Forall₂ TypeUse.Matches arguments arguments') :
      Matches ⟨target, depth, arguments⟩ ⟨target', depth, arguments'⟩

end uses

namespace Graph

section shapes
variable (same : NodeId → NodeId → Prop)

/-- The same property, but for its comment, its default and whether it may be written. -/
structure Property.Matches (p q : Property) : Prop where
  name : p.name = q.name
  type : TypeUse.Matches same p.type q.type
  optional : p.optional = q.optional

/-- The same constant, but for its comment. -/
structure Constant.Matches (c d : Constant) : Prop where
  name : c.name = d.name
  type : TypeUse.Matches same c.type d.type
  value : c.value = d.value

/-- Type parameters of the same names, their defaults aside. -/
def SameParameters (generics generics' : List Parameter) : Prop :=
  generics.map Parameter.name = generics'.map Parameter.name

/-- The same shape, but for the order of properties and what properties, constants and type
parameters carry along. -/
inductive Shape.Matches : Shape → Shape → Prop
  | record {ps qs rs : List Property} {generics generics' : List Parameter}
      (all : List.Forall₂ (Property.Matches same) ps rs) (order : rs.Perm qs)
      (parameters : SameParameters generics generics') :
      Matches (.record ps generics) (.record qs generics')
  | array {element element' : TypeUse} {generics generics' : List Parameter}
      (elements : TypeUse.Matches same element element')
      (parameters : SameParameters generics generics') :
      Matches (.array element generics) (.array element' generics')
  | stringUnion (members : List Member) : Matches (.stringUnion members) (.stringUnion members)
  | primitive (kind : Primitive) : Matches (.primitive kind) (.primitive kind)
  | dictionary (key : IndexKey) {value value' : TypeUse} {generics generics' : List Parameter}
      (values : TypeUse.Matches same value value')
      (parameters : SameParameters generics generics') :
      Matches (.dictionary key value generics) (.dictionary key value' generics')
  | constants {items items' : List Constant}
      (all : List.Forall₂ (Constant.Matches same) items items') :
      Matches (.constants items) (.constants items')
  | tuple {elements elements' : List TypeUse} {generics generics' : List Parameter}
      (all : List.Forall₂ (TypeUse.Matches same) elements elements')
      (parameters : SameParameters generics generics') :
      Matches (.tuple elements generics) (.tuple elements' generics')
  | instantiation {base base' : NodeId} {arguments arguments' : List TypeUse}
      {generics generics' : List Parameter} (bases : same base base')
      (all : List.Forall₂ (TypeUse.Matches same) arguments arguments')
      (parameters : SameParameters generics generics') :
      Matches (.instantiation base arguments generics) (.instantiation base' arguments' generics')
  | classUnion (arity : Nat) : Matches (.classUnion arity) (.classUnion arity)
  | classUnionInstance {base base' : NodeId} {members members' : List TypeUse}
      (bases : same base base') (all : List.Forall₂ (TypeUse.Matches same) members members') :
      Matches (.classUnionInstance base members) (.classUnionInstance base' members')

end shapes

section entries
variable {same : NodeId → NodeId → Prop} {digest digest' : NodeId → String}

theorem targetText_of_matches (equal : ∀ a b, same a b → digest a = digest' b) {t u : Target}
    (targets : Target.Matches same t u) : targetText digest t = targetText digest' u := by
  cases targets with
  | node matched => exact equal _ _ matched
  | generic name => rfl

mutual

theorem useText_of_matches (equal : ∀ a b, same a b → digest a = digest' b) :
    (u v : TypeUse) → TypeUse.Matches same u v → useText digest u = useText digest' v
  | ⟨_, _, arguments⟩, _, .intro targets all => by
    rw [useText, useText, targetText_of_matches equal targets,
      useTexts_of_matches equal arguments _ all]

theorem useTexts_of_matches (equal : ∀ a b, same a b → digest a = digest' b) :
    (us vs : List TypeUse) → List.Forall₂ (TypeUse.Matches same) us vs →
      useTexts digest us = useTexts digest' vs
  | [], _, .nil => rfl
  | u :: us, _, .cons first rest => by
    rw [useTexts, useTexts, useText_of_matches equal u _ first,
      useTexts_of_matches equal us _ rest]

end

variable (equal : ∀ a b, same a b → digest a = digest' b)
include equal

theorem parts_of_matches {u v : TypeUse} (uses : TypeUse.Matches same u v) :
    targetText digest u.target = targetText digest' v.target ∧ u.arrayDepth = v.arrayDepth ∧
      useTexts digest u.arguments = useTexts digest' v.arguments := by
  cases uses with
  | intro targets all =>
    exact ⟨targetText_of_matches equal targets, rfl, useTexts_of_matches equal _ _ all⟩

theorem propertyText_of_matches {p q : Property} (matched : Property.Matches same p q) :
    propertyText digest p = propertyText digest' q := by
  obtain ⟨target, depth, texts⟩ := parts_of_matches equal matched.type
  rw [propertyText, propertyText, usesText, usesText, matched.name, matched.optional, target, depth,
    texts]

theorem constantText_of_matches {c d : Constant} (matched : Constant.Matches same c d) :
    constantText digest c = constantText digest' d := by
  rw [constantText, constantText, matched.name, matched.value,
    useText_of_matches equal _ _ matched.type]

omit equal in
theorem map_eq_of_forall₂ {α β : Type} {r : α → α → Prop} {f g : α → β} {xs ys : List α}
    (all : List.Forall₂ r xs ys) (each : ∀ x y, r x y → f x = g y) : xs.map f = ys.map g := by
  induction all with
  | nil => rfl
  | cons first _ ih => rw [List.map_cons, List.map_cons, each _ _ first, ih]

omit equal in
theorem mergeSort_of_perm {xs ys : List String} (perm : xs.Perm ys) :
    xs.mergeSort (fun a b => !decide (b < a)) = ys.mergeSort (fun a b => !decide (b < a)) := by
  have iff (a b : String) : (!decide (b < a)) = true ↔ a ≤ b := by
    rw [Bool.not_eq_true', decide_eq_false_iff_not, String.not_lt]
  have sorted (zs : List String) : (zs.mergeSort fun a b => !decide (b < a)).Pairwise (· ≤ ·) := by
    refine (List.pairwise_mergeSort ?_ ?_ zs).imp fun {a b} => (iff a b).mp
    · intro a b c
      rw [iff, iff, iff]
      exact String.le_trans
    · intro a b
      rw [Bool.or_eq_true, iff, iff]
      exact String.le_total a b
  have both := (List.mergeSort_perm xs fun a b => !decide (b < a)).trans
    (perm.trans (List.mergeSort_perm ys fun a b => !decide (b < a)).symm)
  exact both.eq_of_pairwise (fun _ _ _ _ => String.le_antisymm) (sorted xs) (sorted ys)

theorem contentEntries_of_matches (hash : Hash) {s t : Shape} (matched : s.Matches same t) :
    contentEntries hash digest s = contentEntries hash digest' t := by
  cases matched with
  | @record ps qs rs generics generics' all order parameters =>
    have hashes := map_eq_of_forall₂ all fun p q matched =>
      congrArg (fun text => hash (bytes text)) (propertyText_of_matches equal matched)
    have sorted := mergeSort_of_perm (order.map fun q => hash (bytes (propertyText digest' q)))
    rw [contentEntries, contentEntries, hashes, sorted]
  | array elements parameters =>
    rw [contentEntries, contentEntries, useText_of_matches equal _ _ elements]
  | stringUnion members => rfl
  | primitive kind => rfl
  | dictionary key values parameters =>
    rw [contentEntries, contentEntries, useText_of_matches equal _ _ values]
  | constants all =>
    have texts := map_eq_of_forall₂ all fun c d matched =>
      congrArg (entry "const") (constantText_of_matches equal matched)
    rw [contentEntries, contentEntries, List.flatMap_def, texts, List.flatMap_def]
  | tuple all parameters =>
    have texts := map_eq_of_forall₂ all fun u v matched =>
      congrArg (entry "element") (useText_of_matches equal u v matched)
    rw [contentEntries, contentEntries, all.length_eq, List.flatMap_def, texts, List.flatMap_def]
  | instantiation bases all parameters =>
    rw [contentEntries, contentEntries, usesText, usesText, equal _ _ bases,
      useTexts_of_matches equal _ _ all]
  | classUnion arity => rfl
  | classUnionInstance bases all =>
    rw [contentEntries, contentEntries, usesText, usesText, equal _ _ bases,
      useTexts_of_matches equal _ _ all]

theorem shapeEntries_of_matches (hash : Hash) {s t : Shape} (matched : s.Matches same t) :
    shapeEntries hash digest s = shapeEntries hash digest' t := by
  have label : s.label = t.label := by cases matched <;> rfl
  have parameters : SameParameters s.generics t.generics := by
    cases matched <;> first | assumption | rfl
  have empty : s.generics = [] ↔ t.generics = [] := by
    rw [← List.map_eq_nil_iff, parameters, List.map_eq_nil_iff]
  rw [shapeEntries, shapeEntries, label, contentEntries_of_matches equal hash matched]
  congr 2
  split <;> split
  · rfl
  · rename_i left _ right
    exact absurd (empty.mp left) right
  · rename_i left _ right
    exact absurd (empty.mpr right) left
  · exact congrArg (fun names => entry "generics" (",".intercalate names)) parameters

end entries

abbrev LiveId (g : Graph) : Type := { id : NodeId // g.isLive id = true }

section matching
variable {g g' : Graph} (f : g.LiveId ≃ g'.LiveId)

/-- The nodes that stand for `a` and `b` are matched. -/
def Matched (a b : NodeId) : Prop :=
  ∃ id : g.LiveId, g.resolve a = id.val ∧ g'.resolve b = (f id).val

/-- Matched nodes have the same shape, references being to matched nodes. -/
def Isomorphic : Prop :=
  ∀ id : g.LiveId, ∃ node node', g.nodes[id.val]? = some node ∧
    g'.nodes[(f id).val]? = some node' ∧ node.shape.Matches (Matched f) node'.shape

variable {f}

/-- Below matched stacks matched nodes have equal digests. The levels need not be the same: each
graph has its own number of nodes. -/
theorem Isomorphic.digestBelow_eq (iso : Isomorphic f) (hash : Hash) (level : Nat) :
    ∀ (level' : Nat) (stack : List g.LiveId) (a b : NodeId),
      g.Fits level (stack.map Subtype.val) →
      g'.Fits level' (stack.map fun id => (f id).val) → Matched f a b →
      digestBelow hash g level (stack.map Subtype.val) a =
        digestBelow hash g' level' (stack.map fun id => (f id).val) b := by
  induction level with
  | zero =>
    rintro level' stack a b fits - ⟨id, left, right⟩
    have full := fits.full ((g.isLive_iff _).mp id.property).1
    obtain ⟨other, onStack, same⟩ := List.mem_map.mp full
    obtain rfl := Subtype.ext same
    rw [digestBelow_of_mem hash _ (left ▸ List.mem_map_of_mem onStack),
      digestBelow_of_mem hash _ (right ▸ List.mem_map_of_mem onStack)]
  | succ level ih =>
    rintro level' stack a b fits fits' ⟨id, left, right⟩
    by_cases onStack : id ∈ stack
    · rw [digestBelow_of_mem hash _ (left ▸ List.mem_map_of_mem onStack),
        digestBelow_of_mem hash _ (right ▸ List.mem_map_of_mem onStack)]
    · have fresh : g.resolve a ∉ stack.map Subtype.val := by
        rw [left, List.mem_map_of_injective Subtype.val_injective]
        exact onStack
      have fresh' : g'.resolve b ∉ stack.map fun id => (f id).val := by
        rw [right]
        exact fun member => onStack
          ((List.mem_map_of_injective (Subtype.val_injective.comp f.injective)).mp member)
      obtain ⟨node, node', found, found', matched⟩ := iso id
      have lt := ((g.isLive_iff _).mp id.property).1
      have lt' := ((g'.isLive_iff _).mp (f id).property).1
      rw [← left] at found lt
      rw [← right] at found' lt'
      cases level' with
      | zero => exact absurd (fits'.full lt') fresh'
      | succ level' =>
        rw [digestBelow_of_node hash level fresh found,
          digestBelow_of_node hash level' fresh' found']
        have next := fits.push lt fresh
        have next' := fits'.push lt' fresh'
        rw [left] at next ⊢
        rw [right] at next' ⊢
        have below := ih level' (id :: stack)
        exact congrArg hash (shapeEntries_of_matches
          (fun c d both => below c d next next' both) hash matched)

end matching

open Operation

/-- Matched nodes of any two graphs have equal digests. -/
theorem digest_eq_of_isomorphic (hash : Hash) (ops ops' : List Operation)
    (f : (runAll hash .empty ops).LiveId ≃ (runAll hash .empty ops').LiveId) (iso : Isomorphic f)
    (id : (runAll hash .empty ops).LiveId) :
    ((runAll hash .empty ops).digest hash id.val).1 =
      ((runAll hash .empty ops').digest hash (f id).val).1 := by
  obtain ⟨-, cache⟩ := runAll_sound hash ops empty_sound (.of_empty rfl)
  obtain ⟨-, cache'⟩ := runAll_sound hash ops' empty_sound (.of_empty rfl)
  have left := resolve_of_isLive id.property
  have right := resolve_of_isLive (f id).property
  rw [(cache.digest_spec _).1, (cache'.digest_spec _).1, left, right, plainDigest, plainDigest]
  exact iso.digestBelow_eq hash _ _ [] _ _ (Fits.start _) (Fits.start _) ⟨id, left, right⟩

/-- Two records that refer to each other, and the first to itself. -/
def Operation.couple : List Operation :=
  [.register { name := "Owner", shape := .record [] [] },
    .register { name := "Pet", shape := .record [] [] },
    .addProperty 0 (.link "self" 0), .addProperty 0 (.link "pet" 1),
    .addProperty 1 (.link "owner" 0)]

/-- A couple with other names, numbers and property order. The owner has been replaced, and the pet
still refers to the replaced node. -/
def Operation.replacedCouple : List Operation :=
  [.register { name := "Boss", shape := .record [] [], origin := some "a" },
    .register { name := "Cat", shape := .record [] [] }, .addProperty 1 (.link "owner" 0),
    .replace "Boss#a" { name := "Chef", shape := .record [] [] },
    .addProperty 2 (.link "pet" 1),
    .addProperty 2 { Property.link "self" 0 with readonly := true, comment := some "same" }]

theorem couple_shapes : (runAll Sha256.hex .empty couple).nodes.toList.map Node.shape =
    [.record [.link "self" 0, .link "pet" 1] [], .record [.link "owner" 0] []] := by cbv

theorem couple_redirects : (runAll Sha256.hex .empty couple).redirects = {} := by cbv

theorem replacedCouple_shapes :
    (runAll Sha256.hex .empty replacedCouple).nodes.toList.map Node.shape =
      [.record [] [], .record [.link "owner" 0] [],
        .record [.link "pet" 1,
          { Property.link "self" 0 with readonly := true, comment := some "same" }] []] := by cbv

theorem replacedCouple_redirects :
    (runAll Sha256.hex .empty replacedCouple).redirects = Table.insert {} 0 2 := by cbv

theorem node_of_shapes {g : Graph} {shapes : List Shape}
    (listed : g.nodes.toList.map Node.shape = shapes) (id : NodeId) {shape : Shape}
    (found : shapes[id]? = some shape) : ∃ node, g.nodes[id]? = some node ∧ node.shape = shape := by
  rw [← listed, List.getElem?_map, Option.map_eq_some_iff, Array.getElem?_toList] at found
  exact found

theorem couple_isLive (id : Nat) : (runAll Sha256.hex .empty couple).isLive id = true ↔ id < 2 := by
  have size := congrArg List.length couple_shapes
  rw [List.length_map, Array.length_toList] at size
  rw [isLive_iff, size, couple_redirects]
  exact and_iff_left rfl

theorem replacedCouple_isLive (id : Nat) :
    (runAll Sha256.hex .empty replacedCouple).isLive id = true ↔ id < 3 ∧ id ≠ 0 := by
  have size := congrArg List.length replacedCouple_shapes
  rw [List.length_map, Array.length_toList] at size
  rw [isLive_iff, size, replacedCouple_redirects, Table.get?_insert]
  refine and_congr_right fun _ => ?_
  split_ifs with owner <;> simp [owner, Table.get?_empty]

/-- The owner is the first node of the one graph and the last of the other. -/
def coupleMatching : (runAll Sha256.hex .empty couple).LiveId ≃
    (runAll Sha256.hex .empty replacedCouple).LiveId where
  toFun id := ⟨(2 - id.val : Nat), by
    have live := (couple_isLive id.val).mp id.property
    rw [replacedCouple_isLive]
    omega⟩
  invFun id := ⟨(2 - id.val : Nat), by
    have live := (replacedCouple_isLive id.val).mp id.property
    rw [couple_isLive]
    omega⟩
  left_inv id := by
    have live := (couple_isLive id.val).mp id.property
    exact Subtype.ext (Nat.sub_sub_self live.le)
  right_inv id := by
    have live := (replacedCouple_isLive id.val).mp id.property
    exact Subtype.ext (Nat.sub_sub_self (Nat.le_of_lt_succ live.1))

theorem isomorphic_couple : Isomorphic coupleMatching := by
  have owner := (couple_isLive 0).mpr (by decide)
  have pet := (couple_isLive 1).mpr (by decide)
  have owners : Matched coupleMatching 0 0 := by
    refine ⟨⟨0, owner⟩, resolve_of_isLive owner, ?_⟩
    rw [resolve, replacedCouple_redirects]
    rfl
  have pets : Matched coupleMatching 1 1 := ⟨⟨1, pet⟩, resolve_of_isLive pet,
    resolve_of_isLive (coupleMatching ⟨1, pet⟩).property⟩
  have link (name : String) (id : NodeId) (both : Matched coupleMatching id id) (readonly : Bool)
      (comment : Option String) : Property.Matches (Matched coupleMatching) (.link name id)
        { Property.link name id with readonly := readonly, comment := comment } :=
    ⟨rfl, ⟨.node both, .nil⟩, rfl⟩
  rintro ⟨id, live⟩
  have lt := (couple_isLive id).mp live
  interval_cases id
  · obtain ⟨m, found, shape⟩ := node_of_shapes couple_shapes 0 rfl
    obtain ⟨n, found', shape'⟩ := node_of_shapes replacedCouple_shapes 2 rfl
    refine ⟨m, n, found, found', ?_⟩
    rw [shape, shape']
    exact .record (.cons (link "self" 0 owners true (some "same"))
      (.cons (link "pet" 1 pets false none) .nil)) (List.Perm.swap _ _ _) rfl
  · obtain ⟨m, found, shape⟩ := node_of_shapes couple_shapes 1 rfl
    obtain ⟨n, found', shape'⟩ := node_of_shapes replacedCouple_shapes 1 rfl
    refine ⟨m, n, found, found', ?_⟩
    rw [shape, shape']
    exact .record (.cons (link "owner" 0 owners false none) .nil) (List.Perm.refl _) rfl

theorem digest_eq_of_isomorphic_couple :
    let g := runAll Sha256.hex .empty couple
    let g' := runAll Sha256.hex .empty replacedCouple
    Isomorphic coupleMatching ∧ g.isLive 0 = true ∧
      (g.digest Sha256.hex 0).1 = (g'.digest Sha256.hex 2).1 := by
  intro g g'
  have live : g.isLive 0 = true := (couple_isLive 0).mpr (by decide)
  exact ⟨isomorphic_couple, live,
    digest_eq_of_isomorphic Sha256.hex couple replacedCouple _ isomorphic_couple ⟨0, live⟩⟩

end Graph

end TypeLoom
