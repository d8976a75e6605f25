import TypeLoom.Proofs.Bisimulation
import TypeLoom.Proofs.Survivors

/-! Type parameters of merged nodes. A digest is taken of the names of type parameters, with a comma
between them, and not of their defaults. So nodes that are merged have type parameters of the same
names, but it may be that the defaults of one of them are lost. -/
namespace TypeLoom.Graph
open Operation

/-- What a digest is taken of first: the kind of a shape and the names of its type parameters. -/
def Shape.heading (s : Shape) : String × List String := (s.label, s.generics.map Parameter.name)

theorem Shape.heading_mapNodes (f : NodeId → NodeId) (s : Shape) :
    (s.mapNodes f).heading = s.heading := by
  have names : ∀ generics : List Parameter,
      (mapParameters f generics).map Parameter.name = generics.map Parameter.name := by
    intro generics
    rw [mapParameters, List.map_map]
    rfl
  cases s <;> simp [heading, mapNodes, label, generics, names]

/-- Names that can be told apart when commas stand between them. -/
def Legible (names : List String) : Prop :=
  (∀ name ∈ names, ',' ∉ name.toList) ∧ (bytes (",".intercalate names)).length < 256 ^ 8

instance (names : List String) : Decidable (Legible names) :=
  inferInstanceAs (Decidable (_ ∧ _))

theorem intercalate_inj {xs ys : List String} (someX : xs ≠ []) (someY : ys ≠ [])
    (cleanX : ∀ x ∈ xs, ',' ∉ x.toList) (cleanY : ∀ y ∈ ys, ',' ∉ y.toList)
    (same : ",".intercalate xs = ",".intercalate ys) : xs = ys := by
  have comma : ∀ (x y : String) (rest : List String),
      (",".intercalate (x :: y :: rest)).toList =
        x.toList ++ ',' :: (",".intercalate (y :: rest)).toList := by
    intro x y rest
    simp [String.intercalate_cons_cons]
  induction xs generalizing ys with
  | nil => exact absurd rfl someX
  | cons x xs ih =>
    cases ys with
    | nil => exact absurd rfl someY
    | cons y ys =>
      rw [List.forall_mem_cons] at cleanX cleanY
      have chars := congrArg String.toList same
      cases xs with
      | nil =>
        cases ys with
        | nil => simpa using same
        | cons next ys =>
          rw [comma, String.intercalate_singleton] at chars
          rw [chars] at cleanX
          exact absurd (by simp) cleanX.1
      | cons other xs =>
        cases ys with
        | nil =>
          rw [comma, String.intercalate_singleton] at chars
          rw [← chars] at cleanY
          exact absurd (by simp) cleanY.1
        | cons next ys =>
          rw [comma, comma] at chars
          obtain ⟨first, rest⟩ := append_inj_of_first cleanX.1 cleanY.1 chars
          rw [String.toList_inj.mp first, ih (by simp) (by simp) cleanX.2 cleanY.2
            (String.toList_inj.mp rest)]

theorem head_append {b : UInt8} {xs ys : List UInt8} (first : xs.head? ≠ some b)
    (second : ys.head? ≠ some b) : (xs ++ ys).head? ≠ some b := by
  cases xs with
  | nil => exact second
  | cons x xs => exact first

theorem head_flatMap {α : Type} {f : α → List UInt8} {b : UInt8}
    (head : ∀ x, (f x).head? ≠ some b) (xs : List α) : (xs.flatMap f).head? ≠ some b := by
  induction xs with
  | nil => exact nofun
  | cons x xs ih => exact head_append (head x) ih

theorem head_entry {label : String} {b : UInt8} (other : (bytes label ++ [0]).head? ≠ some b)
    (value : String) : (entry label value).head? ≠ some b := by
  have whole : entry label value = (bytes label ++ [0]) ++
      (littleEndian 8 (bytes value).length ++ bytes value) := by simp [entry]
  rw [whole, List.head?_append_of_ne_nil _ (by simp)]
  exact other

/-- No entry for the content of a shape begins as the one for its type parameters does. -/
theorem contentEntries_head (hash : Hash) (d : NodeId → String) (s : Shape) :
    (contentEntries hash d s).head? ≠ some 103 := by
  have arity := @head_entry "arity" 103 (by decide +kernel)
  have element := @head_entry "element" 103 (by decide +kernel)
  have base := @head_entry "base" 103 (by decide +kernel)
  cases s with
  | primitive kind => exact head_entry (by decide +kernel) _
  | record properties generics => exact head_flatMap (head_entry (by decide +kernel)) _
  | stringUnion members => exact head_flatMap (fun _ => head_entry (by decide +kernel) _) _
  | array item generics => exact element _
  | dictionary key value generics =>
    exact head_append (head_entry (by decide +kernel) _) (head_entry (by decide +kernel) _)
  | constants items => exact head_flatMap (fun _ => head_entry (by decide +kernel) _) _
  | tuple items generics => exact head_append (arity _) (head_flatMap (fun _ => element _) _)
  | instantiation origin arguments generics =>
    exact head_append (base _) (head_entry (by decide +kernel) _)
  | classUnion count => exact arity _
  | classUnionInstance origin members =>
    exact head_append (base _) (head_entry (by decide +kernel) _)

/-- The entry for the names of type parameters, if there are any. -/
def namesEntry (names : List String) : List UInt8 :=
  if names = [] then [] else entry "generics" (",".intercalate names)

theorem shapeEntries_eq (hash : Hash) (d : NodeId → String) (s : Shape) : shapeEntries hash d s =
    entry "token" s.heading.1 ++ (namesEntry s.heading.2 ++ contentEntries hash d s) := by
  rw [shapeEntries, Shape.heading, namesEntry]
  cases s.generics with
  | nil => simp
  | cons p rest => simp

theorem namesEntry_append_inj {xs ys : List String} {x y : List UInt8} (legibleX : Legible xs)
    (legibleY : Legible ys) (headX : x.head? ≠ some 103) (headY : y.head? ≠ some 103)
    (same : namesEntry xs ++ x = namesEntry ys ++ y) : xs = ys := by
  have letter : (bytes "generics").head? = some 103 := by decide +kernel
  have begins : ∀ (names : List String) (rest : List UInt8), names ≠ [] →
      (namesEntry names ++ rest).head? = some 103 := by
    intro names rest some
    rw [namesEntry, if_neg some, entry, List.append_assoc, List.append_assoc, List.head?_append,
      letter]
    rfl
  by_cases noneX : xs = []
  · by_cases noneY : ys = []
    · rw [noneX, noneY]
    · have head := begins ys y noneY
      rw [← same, noneX] at head
      exact absurd head headX
  · by_cases noneY : ys = []
    · have head := begins xs x noneX
      rw [same, noneY] at head
      exact absurd head headY
    · rw [namesEntry, namesEntry, if_neg noneX, if_neg noneY] at same
      exact intercalate_inj noneX noneY legibleX.1 legibleY.1
        (entry_append_inj legibleX.2 legibleY.2 same).1

theorem label_of_entries {hash : Hash} {d e : NodeId → String} {s t : Shape}
    (same : shapeEntries hash d s = shapeEntries hash e t) :
    s.heading.1 = t.heading.1 ∧ namesEntry s.heading.2 ++ contentEntries hash d s =
      namesEntry t.heading.2 ++ contentEntries hash e t := by
  have small : ∀ s : Shape, (bytes s.heading.1).length < 256 ^ 8 := by
    intro s
    cases s <;> simp only [Shape.heading, Shape.label] <;> decide +kernel
  rw [shapeEntries_eq, shapeEntries_eq] at same
  exact entry_append_inj (small s) (small t) same

theorem heading_of_entries {hash : Hash} {d e : NodeId → String} {s t : Shape}
    (legibleS : Legible s.heading.2) (legibleT : Legible t.heading.2)
    (same : shapeEntries hash d s = shapeEntries hash e t) : s.heading = t.heading := by
  obtain ⟨label, rest⟩ := label_of_entries same
  exact Prod.ext label (namesEntry_append_inj legibleS legibleT (contentEntries_head _ _ _)
    (contentEntries_head _ _ _) rest)

def parameters (g : Graph) (id : NodeId) : List Parameter :=
  ((g.shape? id).map Shape.generics).getD []

def heading? (g : Graph) (id : NodeId) : Option (String × List String) :=
  (g.shape? id).map Shape.heading

theorem plainDigest_of_live (hash : Hash) {g : Graph} {id : NodeId} {s : Shape}
    (live : g.isLive id = true) (found : g.shape? id = some s) :
    ∃ d, plainDigest hash g id = hash (shapeEntries hash d s) ∧
      shapeEntries hash d s ∈ textsBelow hash g g.nodes.size [] id := by
  obtain ⟨node, there, rfl⟩ := Option.map_eq_some_iff.mp found
  obtain ⟨level, size⟩ : ∃ level, g.nodes.size = level + 1 :=
    Nat.exists_eq_add_one.mpr (Nat.zero_lt_of_lt (Array.getElem?_eq_some_iff.mp there).1)
  rw [plainDigest, size, digestBelow_of_live hash level live List.not_mem_nil there,
    textsBelow_of_live hash level live List.not_mem_nil there]
  exact ⟨_, rfl, List.mem_cons_self⟩

theorem shape_of_isLive {g : Graph} {id : NodeId} (live : g.isLive id = true) :
    ∃ s, g.shape? id = some s := by
  rw [shape?, Array.getElem?_eq_getElem ((isLive_iff g id).mp live).1]
  exact ⟨_, rfl⟩

theorem shape_map_eq {α : Type} (view : Shape → α) (g : Graph) (id : NodeId) :
    (g.shape? id).map view = (g.nodes.map fun node => view node.shape)[id]? := by
  rw [shape?, Option.map_map, Array.getElem?_map]
  rfl

/-- No two live nodes of a graph are hashed alike by chance. -/
def Collisionless (hash : Hash) (g : Graph) : Prop :=
  ∀ a b, g.isLive a = true → g.isLive b = true → CollisionFree hash g a b

section views
variable {hash : Hash} {α : Type} {view : Shape → α} {clear : α → Prop}
  (read : ∀ (d e : NodeId → String) (s t : Shape), clear (view s) → clear (view t) →
    shapeEntries hash d s = shapeEntries hash e t → view s = view t)
include read

theorem view_of_plainDigest {g : Graph} {a b : NodeId} (liveA : g.isLive a = true)
    (liveB : g.isLive b = true) (free : CollisionFree hash g a b)
    (all : ∀ id ∈ [a, b], ∀ value, (g.shape? id).map view = some value → clear value)
    (equal : plainDigest hash g a = plainDigest hash g b) :
    (g.shape? a).map view = (g.shape? b).map view := by
  obtain ⟨s, shapeA⟩ := shape_of_isLive liveA
  obtain ⟨t, shapeB⟩ := shape_of_isLive liveB
  obtain ⟨d, digestA, textA⟩ := plainDigest_of_live hash liveA shapeA
  obtain ⟨e, digestB, textB⟩ := plainDigest_of_live hash liveB shapeB
  rw [digestA, digestB] at equal
  have viewA : (g.shape? a).map view = some (view s) := by rw [shapeA, Option.map_some]
  have viewB : (g.shape? b).map view = some (view t) := by rw [shapeB, Option.map_some]
  rw [viewA, viewB, read d e s t (all a (by simp) _ viewA) (all b (by simp) _ viewB)
    (free _ textA _ textB equal)]

theorem view_resolve (kept : ∀ (f : NodeId → NodeId) (s : Shape), view (s.mapNodes f) = view s)
    {g : Graph} (sound : g.Sound) (free : ∀ h, Begins hash g h → Collisionless hash h.prepared)
    (all : ∀ id, g.isLive id = true → ∀ value, (g.shape? id).map view = some value → clear value)
    {id : NodeId} (live : g.isLive id = true) :
    (g.shape? id).map view = (g.shape? ((g.consolidate hash).2.resolve id)).map view := by
  have lasting : Lasting fun node => view node.shape :=
    ⟨fun _ _ => rfl, fun node f => kept f node.shape⟩
  rw [shape_map_eq, shape_map_eq, Array.getElem?_map, Array.getElem?_map]
  refine consolidate_view_resolve lasting sound ?_ live
  intro h begins a b liveA liveB equal
  obtain ⟨nodes, earlier⟩ := begins.kept lasting sound
  have prepared : ∀ id, (h.prepared.shape? id).map view = (h.shape? id).map view := by
    intro id
    rw [shape_map_eq, shape_map_eq, prepared, canonicalize_map lasting]
    rfl
  have clearAll : ∀ id ∈ [a, b], ∀ value, (h.prepared.shape? id).map view = some value →
      clear value := by
    intro id member value found
    rw [prepared, shape_map_eq, nodes, ← shape_map_eq] at found
    have alive : h.isLive id = true := by
      simp only [List.mem_cons, List.not_mem_nil, or_false] at member
      rcases member with rfl | rfl
      · exact liveA
      · exact liveB
    exact all id (earlier id alive) value found
  rw [← prepared_isLive] at liveA liveB
  have same := view_of_plainDigest read liveA liveB (free h begins a b liveA liveB) clearAll equal
  rwa [prepared, prepared, shape_map_eq, shape_map_eq, Array.getElem?_map, Array.getElem?_map]
    at same

end views

theorem resolve_eq_of_entries {hash : Hash} {g : Graph} (sound : g.Sound) {a b : NodeId}
    (liveA : g.isLive a = true) (liveB : g.isLive b = true) {s t : Shape}
    (shapeA : g.shape? a = some s) (shapeB : g.shape? b = some t)
    (same : ∀ (d e : NodeId → String) (f : NodeId → NodeId),
      shapeEntries hash d (s.mapNodes f) = shapeEntries hash e (t.mapNodes f)) :
    (g.consolidate hash).2.resolve a = (g.consolidate hash).2.resolve b := by
  have prepared : ∀ {id : NodeId} {s : Shape}, g.isLive id = true → g.shape? id = some s →
      ∃ d, plainDigest hash g.prepared id = hash (shapeEntries hash d (s.mapNodes g.resolve)) := by
    intro id s live shape
    have moved : g.prepared.shape? id = some (s.mapNodes g.resolve) := by
      have canonical := canonicalize_shape g.forgetDigests ((isLive_iff g id).mp live).2
      exact canonical.trans (congrArg (Option.map (Shape.mapNodes g.resolve)) shape)
    obtain ⟨d, digest, -⟩ := plainDigest_of_live hash ((prepared_isLive g id).trans live) moved
    exact ⟨d, digest⟩
  obtain ⟨d, digestA⟩ := prepared liveA shapeA
  obtain ⟨e, digestB⟩ := prepared liveB shapeB
  refine consolidate_resolve_eq sound liveA liveB ?_
  rw [digestA, digestB, same d e]

theorem parameters_names (g : Graph) (id : NodeId) :
    (g.parameters id).map Parameter.name = ((g.heading? id).map Prod.snd).getD [] := by
  rw [parameters, heading?]
  cases g.shape? id <;> rfl

/-- The nodes that `id` is merged with have the defaults that it has. -/
def DefaultsAgree (hash : Hash) (g : Graph) (id : NodeId) : Prop :=
  ∀ other, g.isLive other = true →
    (g.consolidate hash).2.resolve other = (g.consolidate hash).2.resolve id →
    Shape.mapParameters g.resolve (g.parameters other) =
      Shape.mapParameters g.resolve (g.parameters id)

theorem heading_resolve {hash : Hash} {g : Graph} (sound : g.Sound)
    (legible : ∀ id, g.isLive id = true → Legible ((g.parameters id).map Parameter.name))
    (free : ∀ h, Begins hash g h → Collisionless hash h.prepared) {id : NodeId}
    (live : g.isLive id = true) :
    g.heading? id = g.heading? ((g.consolidate hash).2.resolve id) := by
  refine @view_resolve hash _ Shape.heading (fun heading => Legible heading.2)
    (fun _ _ _ _ => heading_of_entries) Shape.heading_mapNodes g sound free ?_ id live
  intro id alive heading found
  have names := legible id alive
  rwa [parameters_names, heading?, found] at names

theorem parameters_consolidate {hash : Hash} {g : Graph} (sound : g.Sound) {id : NodeId}
    (live : (g.consolidate hash).2.isLive id = true) : (g.consolidate hash).2.parameters id =
      Shape.mapParameters (g.consolidate hash).2.resolve (g.parameters id) := by
  have generics : ∀ (f : NodeId → NodeId) (s : Shape),
      (s.mapNodes f).generics = Shape.mapParameters f s.generics := by
    intro f s
    cases s <;> rfl
  rw [parameters, parameters, consolidate_shape sound live]
  cases g.shape? id with
  | none => rfl
  | some s => exact generics _ s

/-- A node and the one that stands for it after a consolidation have type parameters of the same
names. The defaults are those that the latter had before. So a reference without type arguments
means what it did if the nodes that were merged had the same defaults. -/
theorem consolidate_parameters (hash : Hash) (ops : List Operation)
    (legible : ∀ id, (runAll hash .empty ops).isLive id = true →
      Legible (((runAll hash .empty ops).parameters id).map Parameter.name))
    (free : ∀ h, Begins hash (runAll hash .empty ops) h → Collisionless hash h.prepared)
    {id : NodeId} (live : (runAll hash .empty ops).isLive id = true) :
    let g := runAll hash .empty ops
    let g' := (g.consolidate hash).2
    (g'.parameters (g'.resolve id)).map Parameter.name = (g.parameters id).map Parameter.name ∧
      g'.parameters (g'.resolve id) =
        Shape.mapParameters g'.resolve (g.parameters (g'.resolve id)) ∧
      (DefaultsAgree hash g id → g'.parameters (g'.resolve id) =
        Shape.mapParameters g'.resolve (g.parameters id)) := by
  intro g g'
  have sound : g.Sound := (runAll_sound hash ops empty_sound (.of_empty rfl)).1
  have shrinks : Shrinks g (g.consolidate hash).1 g' := consolidate_shrinks hash sound
  have ext : Extends g g' := consolidate_extends sound
  have lt : id < g'.nodes.size := shrinks.size.symm ▸ ((isLive_iff g id).mp live).1
  have survives : g'.isLive (g'.resolve id) = true := shrinks.sound.isLive_resolve lt
  have heading : g.heading? id = g.heading? (g'.resolve id) :=
    heading_resolve sound legible free live
  have resolved : g'.parameters (g'.resolve id) =
      Shape.mapParameters g'.resolve (g.parameters (g'.resolve id)) :=
    parameters_consolidate sound survives
  refine ⟨?_, resolved, ?_⟩
  · rw [parameters_names g, heading, ← parameters_names g, resolved, Shape.mapParameters,
      List.map_map]
    rfl
  · intro agree
    have before := agree _ (ext.isLive_earlier shrinks.size survives)
      (shrinks.sound.resolve_resolve id)
    have after := congrArg (Shape.mapParameters g'.resolve) before
    rw [Shape.mapParameters_mapParameters, Shape.mapParameters_mapParameters,
      ext.resolve_comp shrinks.sound] at after
    rw [resolved, after]

/-- Writes every byte as a character. -/
def spelled : Hash := fun text => String.ofList (text.map fun b => Char.ofNat b.toNat)

theorem spelled_injective : Function.Injective spelled := by
  have letter : Function.Injective fun b : UInt8 => Char.ofNat b.toNat := by
    intro a b same
    have code : ∀ b : UInt8, (Char.ofNat b.toNat).toNat = b.toNat := by
      intro b
      have valid : b.toNat.isValidChar := .inl (b.toNat_lt.trans (by decide))
      rw [Char.ofNat, dif_pos valid]
      rfl
    have codes := congrArg Char.toNat same
    dsimp only at codes
    rw [code, code] at codes
    exact UInt8.toNat_inj.mp codes
  intro s t same
  exact List.map_injective_iff.mpr letter (String.ofList_inj.mp same)

/-- A record of one value whose type is a parameter. -/
def Shape.box (default : Option TypeUse) : Shape :=
  .record [⟨"value", .ofGeneric "T", false, false, none, none⟩] [⟨"T", default⟩]

/-- Two records that differ in the default of their type parameter only. -/
def Operation.boxes (first second : Option TypeUse) : List Operation :=
  [.primitive .string, .register { name := "Box", shape := .box first },
    .register { name := "Crate", shape := .box second }]

section boxes
variable (hash : Hash) (first second : Option TypeUse)

theorem boxes_redirects : (runAll hash .empty (boxes first second)).redirects = {} := by cbv

theorem boxes_shapes : (runAll hash .empty (boxes first second)).nodes.toList.map Node.shape =
    [.primitive .string, .box first, .box second] := by cbv

theorem boxes_live (id : NodeId) (lt : id < 3) :
    (runAll hash .empty (boxes first second)).isLive id = true := by
  have size : (runAll hash .empty (boxes first second)).nodes.size = 3 := by
    simpa using congrArg List.length (boxes_shapes hash first second)
  rw [isLive_iff, size, boxes_redirects]
  exact ⟨lt, rfl⟩

theorem boxes_shape (id : NodeId) : (runAll hash .empty (boxes first second)).shape? id =
    [.primitive .string, .box first, .box second][id]? := by
  rw [← boxes_shapes hash first second, List.getElem?_map, shape?]
  simp

theorem boxes_heading (id : NodeId) : (runAll hash .empty (boxes first second)).heading? id =
    [("primitive", []), ("record", ["T"]), ("record", ["T"])][id]? := by
  rw [heading?, boxes_shape]
  match id with
  | 0 | 1 | 2 | id + 3 => rfl

theorem boxes_legible (id : NodeId) : Legible
    (((runAll hash .empty (boxes first second)).parameters id).map Parameter.name) := by
  rw [parameters_names, boxes_heading]
  match id with
  | 0 | 1 | 2 => decide +kernel
  | id + 3 =>
    have none : Legible [] := by decide +kernel
    exact none

theorem boxes_merged :
    ((runAll hash .empty (boxes first second)).consolidate hash).2.resolve 1 =
      ((runAll hash .empty (boxes first second)).consolidate hash).2.resolve 2 := by
  have live := boxes_live hash first second
  refine resolve_eq_of_entries (runAll_sound hash _ empty_sound (.of_empty rfl)).1
    (live 1 (by decide)) (live 2 (by decide)) (boxes_shape hash first second 1)
    (boxes_shape hash first second 2) ?_
  intro d e f
  rw [shapeEntries_eq, shapeEntries_eq, Shape.heading_mapNodes, Shape.heading_mapNodes]
  rfl

end boxes

theorem collisionless_of_injective {hash : Hash} (injective : Function.Injective hash) (g : Graph) :
    Collisionless hash g :=
  fun _ _ _ _ _ _ _ _ same => injective same

theorem boxes_agree {hash : Hash} (injective : Function.Injective hash)
    (default : Option TypeUse) {id : NodeId}
    (live : (runAll hash .empty (boxes default default)).isLive id = true) :
    DefaultsAgree hash (runAll hash .empty (boxes default default)) id := by
  have heading := @heading_resolve hash _
    (runAll_sound hash (boxes default default) empty_sound (.of_empty rfl)).1
    (fun id _ => boxes_legible hash default default id)
    (fun h _ => collisionless_of_injective injective h.prepared)
  have parameters : ∀ id, (runAll hash .empty (boxes default default)).parameters id =
      (((runAll hash .empty (boxes default default)).heading? id).map
        fun heading => heading.2.map fun name => ⟨name, default⟩).getD [] := by
    intro id
    rw [boxes_heading, Graph.parameters, boxes_shape]
    match id with
    | 0 | 1 | 2 | id + 3 => rfl
  intro other alive merged
  rw [parameters, parameters, heading alive, merged, ← heading live]

theorem consolidate_parameters_boxes :
    let g := runAll spelled .empty (boxes (some (.ofNode 0)) (some (.ofNode 0)))
    let g' := (g.consolidate spelled).2
    g.isLive 2 = true ∧ DefaultsAgree spelled g 2 ∧ g'.resolve 1 = g'.resolve 2 ∧
      (g'.parameters (g'.resolve 2)).map Parameter.name = (g.parameters 2).map Parameter.name ∧
      g'.parameters (g'.resolve 2) = Shape.mapParameters g'.resolve (g.parameters 2) := by
  have live := boxes_live spelled (some (.ofNode 0)) (some (.ofNode 0)) 2 (by decide)
  have agree := boxes_agree spelled_injective (some (.ofNode 0)) live
  obtain ⟨names, -, defaults⟩ := consolidate_parameters spelled _
    (fun id _ => boxes_legible _ _ _ id)
    (fun h _ => collisionless_of_injective spelled_injective _) live
  exact ⟨live, agree, boxes_merged _ _ _, names, defaults agree⟩

/-- A box without a default is merged with one that has a default: one of the two does not keep what
a reference without type arguments means. -/
theorem merged_despite_defaults :
    let g := runAll Sha256.hex .empty (boxes none (some (.ofNode 0)))
    let g' := (g.consolidate Sha256.hex).2
    g.isLive 1 = true ∧ g.isLive 2 = true ∧ g'.resolve 1 = g'.resolve 2 ∧
      ¬ (g'.parameters (g'.resolve 1) = Shape.mapParameters g'.resolve (g.parameters 1) ∧
        g'.parameters (g'.resolve 2) = Shape.mapParameters g'.resolve (g.parameters 2)) := by
  have live := boxes_live Sha256.hex none (some (.ofNode 0))
  have shape := boxes_shape Sha256.hex none (some (.ofNode 0))
  have merged := boxes_merged Sha256.hex none (some (.ofNode 0))
  generalize runAll Sha256.hex .empty (boxes none (some (.ofNode 0))) = g at live shape merged
  intro g g'
  refine ⟨live 1 (by decide), live 2 (by decide), merged, ?_⟩
  rintro ⟨left, right⟩
  rw [merged, right, parameters, parameters, shape, shape] at left
  have differ : [true] = [false] :=
    congrArg (List.map fun p : Parameter => p.default.isSome) left
  exact absurd differ (by decide)

end TypeLoom.Graph
