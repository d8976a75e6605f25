import Mathlib.Data.List.Basic
import Mathlib.Data.List.Nodup
import Mathlib.Data.String.Basic
import TypeLoom.Digest.Sha256
import TypeLoom.Graph.Digest

/-! What digests are taken of can be read back. Entries carry the length of their value, the parts
of a property's text stand between separators that do not occur in them, and a digest consists of
hexadecimal digits. So records without type parameters whose entries are the same have the same
properties, up to the digests of what the properties refer to. -/
namespace TypeLoom.Graph

theorem toList_loop (b : ByteArray) (i : Nat) (read : List UInt8) :
    ByteArray.toList.loop b i read = read.reverse ++ b.data.toList.drop i := by
  induction rest : b.size - i generalizing i read with
  | zero =>
    have done : b.data.toList.length ≤ i := by
      rw [Array.length_toList]
      exact Nat.le_of_sub_eq_zero rest
    rw [ByteArray.toList.loop, if_neg (by omega), List.drop_eq_nil_of_le done, List.append_nil]
  | succ rest ih =>
    have lt : i < b.size := by omega
    have inside : i < b.data.toList.length := by rwa [Array.length_toList]
    rw [ByteArray.toList.loop, if_pos lt, ih (i + 1) _ (by omega), List.drop_eq_getElem_cons inside]
    simp [ByteArray.get!, getElem!_pos b.data i lt]

theorem bytes_eq (text : String) : bytes text = text.toByteArray.data.toList := by
  rw [bytes, String.toUTF8_eq_toByteArray, ByteArray.toList, toList_loop]
  rfl

theorem bytes_inj {s t : String} (same : bytes s = bytes t) : s = t := by
  rw [bytes_eq, bytes_eq] at same
  exact String.toByteArray_inj.mp (ByteArray.ext (Array.toList_inj.mp same))

theorem length_bytes (text : String) : (bytes text).length = text.utf8ByteSize := by
  rw [bytes_eq]
  rfl

theorem length_littleEndian (n x : Nat) : (littleEndian n x).length = n := by
  induction n generalizing x with
  | zero => rfl
  | succ n ih => rw [littleEndian, List.length_cons, ih]

theorem littleEndian_inj {n x y : Nat} (ltX : x < 256 ^ n) (ltY : y < 256 ^ n)
    (same : littleEndian n x = littleEndian n y) : x = y := by
  induction n generalizing x y with
  | zero => omega
  | succ n ih =>
    rw [littleEndian, littleEndian, List.cons.injEq] at same
    have low : x % 256 = y % 256 := by
      have := congrArg UInt8.toNat same.1
      simpa using this
    have high : x / 256 = y / 256 := by
      apply ih _ _ same.2
      · exact Nat.div_lt_of_lt_mul (by rwa [Nat.pow_succ'] at ltX)
      · exact Nat.div_lt_of_lt_mul (by rwa [Nat.pow_succ'] at ltY)
    omega

theorem entry_append_inj {label v w : String} {x y : List UInt8}
    (smallV : (bytes v).length < 256 ^ 8)
    (smallW : (bytes w).length < 256 ^ 8) (same : entry label v ++ x = entry label w ++ y) :
    v = w ∧ x = y := by
  simp only [entry, List.append_assoc, List.cons_append, List.append_cancel_left_eq,
    List.cons.injEq, true_and] at same
  obtain ⟨sizes, rest⟩ := List.append_inj same (by rw [length_littleEndian, length_littleEndian])
  obtain ⟨content, after⟩ := List.append_inj rest (littleEndian_inj smallV smallW sizes)
  exact ⟨bytes_inj content, after⟩

theorem flatMap_entry_inj {label : String} {xs ys : List String}
    (smallX : ∀ v ∈ xs, (bytes v).length < 256 ^ 8) (smallY : ∀ v ∈ ys, (bytes v).length < 256 ^ 8)
    (same : xs.flatMap (entry label) = ys.flatMap (entry label)) : xs = ys := by
  induction xs generalizing ys with
  | nil =>
    cases ys with
    | nil => rfl
    | cons w ys => simp [entry] at same
  | cons v xs ih =>
    cases ys with
    | nil => simp [entry] at same
    | cons w ys =>
      rw [List.forall_mem_cons] at smallX smallY
      obtain ⟨first, rest⟩ := entry_append_inj smallX.1 smallY.1 same
      rw [first, ih smallX.2 smallY.2 rest]

theorem append_inj_of_last {c : Char} {x y s t : List Char} (notS : c ∉ s) (notT : c ∉ t)
    (same : x ++ c :: s = y ++ c :: t) : x = y ∧ s = t := by
  rcases List.append_eq_append_iff.mp same with ⟨more, rfl, rest⟩ | ⟨more, rfl, rest⟩
  · cases more with
    | nil => exact ⟨(List.append_nil x).symm, (List.cons.inj rest).2⟩
    | cons first more =>
      rw [(List.cons.inj rest).2] at notS
      exact absurd (List.mem_append_right more List.mem_cons_self) notS
  · cases more with
    | nil => exact ⟨List.append_nil y, ((List.cons.inj rest).2).symm⟩
    | cons first more =>
      rw [(List.cons.inj rest).2] at notT
      exact absurd (List.mem_append_right more List.mem_cons_self) notT

theorem append_inj_of_first {c : Char} {x y s t : List Char} (notX : c ∉ x) (notY : c ∉ y)
    (same : x ++ c :: s = y ++ c :: t) : x = y ∧ s = t := by
  have backwards : s.reverse ++ c :: x.reverse = t.reverse ++ c :: y.reverse := by
    simpa using congrArg List.reverse same
  obtain ⟨after, before⟩ := append_inj_of_last (by simpa using notX) (by simpa using notY) backwards
  exact ⟨List.reverse_injective before, List.reverse_injective after⟩

/-- Neither of the two separators of a property's text occurs. -/
def Unseparated (text : String) : Prop := '#' ∉ text.toList ∧ ':' ∉ text.toList

instance (text : String) : Decidable (Unseparated text) :=
  inferInstanceAs (Decidable ('#' ∉ text.toList ∧ ':' ∉ text.toList))

theorem unseparated_cycleMark : Unseparated cycleMark := by decide

theorem unseparated_boolText (b : Bool) : Unseparated (boolText b) := by
  cases b <;> decide

theorem unseparated_toString (n : Nat) : Unseparated (toString n) := by
  rw [Unseparated, Nat.toString_eq_ofList_toDigits, String.toList_ofList]
  constructor <;> intro member <;>
    exact absurd (Nat.isDigit_of_mem_toDigits (by decide) (by decide) member) (by decide)

end TypeLoom.Graph

namespace TypeLoom.TypeUse

/-- No type parameter occurs. -/
def Ground (u : TypeUse) : Prop := ∀ name, u.mentions name = false

theorem Ground.target_node {u : TypeUse} (ground : u.Ground) : ∃ id, u.target = .node id := by
  obtain ⟨target, depth, arguments⟩ := u
  cases target with
  | node id => exact ⟨id, rfl⟩
  | generic own =>
    have mentioned := ground own
    simp [mentions] at mentioned

theorem Ground.arguments {u : TypeUse} (ground : u.Ground) : ∀ v ∈ u.arguments, v.Ground := by
  obtain ⟨target, depth, arguments⟩ := u
  have none : ∀ name, anyMentions name arguments = false := by
    intro name
    have := ground name
    cases target <;> simp_all [mentions]
  clear ground
  induction arguments with
  | nil => simp
  | cons v rest ih =>
    simp only [anyMentions, Bool.or_eq_false_iff, forall_and] at none
    exact List.forall_mem_cons.mpr ⟨none.1, ih none.2⟩

end TypeLoom.TypeUse

namespace TypeLoom.Graph

theorem not_mem_intercalate {c : Char} {separator : String} (other : c ∉ separator.toList) :
    (texts : List String) → (∀ text ∈ texts, c ∉ text.toList) →
      c ∉ (separator.intercalate texts).toList
  | [], _ => by simp
  | [text], without => by
    rw [String.intercalate_singleton]
    exact without text (List.mem_singleton_self text)
  | text :: next :: rest, without => by
    rw [List.forall_mem_cons] at without
    have later := not_mem_intercalate other (next :: rest) without.2
    simp only [String.intercalate_cons_cons, String.toList_append, List.mem_append, not_or]
    exact ⟨⟨without.1, other⟩, later⟩

section texts
variable {digest : NodeId → String}

mutual

theorem colon_not_mem_useText (clean : ∀ id, Unseparated (digest id)) :
    (u : TypeUse) → u.Ground → ':' ∉ (useText digest u).toList
  | ⟨target, depth, arguments⟩, ground => by
    obtain ⟨id, node⟩ := ground.target_node
    dsimp only at node
    have inner : ':' ∉ (",".intercalate (useTexts digest arguments)).toList :=
      not_mem_intercalate (by decide) _ (colon_not_mem_useTexts clean arguments ground.arguments)
    simp only [useText, node, targetText, String.toList_append, List.mem_append, not_or]
    exact ⟨⟨⟨⟨(clean id).2, by decide⟩, (unseparated_toString depth).2⟩, by decide⟩, inner⟩

theorem colon_not_mem_useTexts (clean : ∀ id, Unseparated (digest id)) :
    (uses : List TypeUse) → (∀ u ∈ uses, u.Ground) →
    ∀ text ∈ useTexts digest uses, ':' ∉ text.toList
  | [], _ => by simp [useTexts]
  | u :: rest, ground => by
    rw [List.forall_mem_cons] at ground
    rw [useTexts, List.forall_mem_cons]
    exact ⟨colon_not_mem_useText clean u ground.1, colon_not_mem_useTexts clean rest ground.2⟩

end

/-- What follows the name in the text of a property that refers to a node. -/
def afterName (digest : NodeId → String) (p : Property) (id : NodeId) : List Char :=
  (digest id).toList ++ '#' :: ((boolText p.optional).toList ++ '#' ::
    ((toString p.type.arrayDepth).toList ++ '#' :: (usesText digest p.type.arguments).toList))

theorem propertyText_toList {p : Property} {id : NodeId} (node : p.type.target = .node id) :
    (propertyText digest p).toList = p.name.toList ++ ':' :: afterName digest p id := by
  simp [propertyText, afterName, node, targetText]

theorem colon_not_mem_afterName (clean : ∀ id, Unseparated (digest id)) {p : Property}
    (ground : p.type.Ground) (id : NodeId) : ':' ∉ afterName digest p id := by
  have inner : ':' ∉ (usesText digest p.type.arguments).toList :=
    not_mem_intercalate (by decide) _ (colon_not_mem_useTexts clean _ ground.arguments)
  simp only [afterName, List.mem_append, List.mem_cons, not_or]
  exact ⟨(clean id).2, by decide, (unseparated_boolText _).2, by decide,
    (unseparated_toString _).2, by decide, inner⟩

end texts

theorem toString_inj {m n : Nat} (same : toString m = toString n) : m = n := by
  rw [Nat.toString_eq_ofList_toDigits, Nat.toString_eq_ofList_toDigits, String.ofList_inj] at same
  rw [← @Nat.ofDigitChars_ten_toDigits m, same, Nat.ofDigitChars_ten_toDigits]

theorem boolText_inj {b c : Bool} (same : boolText b = boolText c) : b = c := by
  revert same
  cases b <;> cases c <;> decide

/-- The name of a property, whether it is optional, and its array ranks. -/
def Property.outline (p : Property) : String × Bool × Nat := (p.name, p.optional, p.type.arrayDepth)

theorem propertyText_inj {d e : NodeId → String} (cleanD : ∀ id, Unseparated (d id))
    (cleanE : ∀ id, Unseparated (e id)) {p q : Property} (groundP : p.type.Ground)
    (groundQ : q.type.Ground) (same : propertyText d p = propertyText e q) :
    p.outline = q.outline ∧
      ∃ a b, p.type.target = .node a ∧ q.type.target = .node b ∧ d a = e b := by
  obtain ⟨a, nodeA⟩ := groundP.target_node
  obtain ⟨b, nodeB⟩ := groundQ.target_node
  have chars := congrArg String.toList same
  rw [propertyText_toList nodeA, propertyText_toList nodeB] at chars
  obtain ⟨name, rest⟩ := append_inj_of_last (colon_not_mem_afterName cleanD groundP a)
    (colon_not_mem_afterName cleanE groundQ b) chars
  obtain ⟨target, rest⟩ := append_inj_of_first (cleanD a).1 (cleanE b).1 rest
  obtain ⟨optional, rest⟩ :=
    append_inj_of_first (unseparated_boolText _).1 (unseparated_boolText _).1 rest
  obtain ⟨depth, -⟩ :=
    append_inj_of_first (unseparated_toString _).1 (unseparated_toString _).1 rest
  have depths : p.type.arrayDepth = q.type.arrayDepth := toString_inj (String.toList_inj.mp depth)
  refine ⟨?_, a, b, nodeA, nodeB, String.toList_inj.mp target⟩
  rw [Property.outline, Property.outline, String.toList_inj.mp name,
    boolText_inj (String.toList_inj.mp optional), depths]

def hexDigits : List Char :=
  ['0', '1', '2', '3', '4', '5', '6', '7', '8', '9', 'a', 'b', 'c', 'd', 'e', 'f']

/-- Digests are written as 64 hexadecimal digits. -/
structure HexDigest (hash : Hash) : Prop where
  size : ∀ text, (bytes (hash text)).length = 64
  digits : ∀ text, ∀ c ∈ (hash text).toList, c ∈ hexDigits

namespace HexDigest
variable {hash : Hash} (hex : HexDigest hash)
include hex

theorem small (text : List UInt8) : (bytes (hash text)).length < 256 ^ 8 := by
  rw [hex.size]
  decide

theorem unseparated (text : List UInt8) : Unseparated (hash text) := by
  constructor <;> intro member <;> exact absurd (hex.digits text _ member) (by decide)

theorem ne_cycleMark (text : List UInt8) : hash text ≠ cycleMark := by
  intro same
  have member : '<' ∈ (hash text).toList := by
    rw [same]
    decide
  exact absurd (hex.digits text '<' member) (by decide)

theorem unseparated_digestBelow (g : Graph) (level : Nat) (stack : List NodeId) (id : NodeId) :
    Unseparated (digestBelow hash g level stack id) := by
  cases level with
  | zero => exact unseparated_cycleMark
  | succ level =>
    rw [digestBelow]
    split_ifs
    · exact unseparated_cycleMark
    · split
      · exact unseparated_cycleMark
      · exact hex.unseparated _

end HexDigest

theorem mem_hexDigits_of_mem_toDigits {n : Nat} {c : Char} (member : c ∈ Nat.toDigits 16 n) :
    c ∈ hexDigits := by
  have digit : ∀ d < 16, d.digitChar ∈ hexDigits := by decide
  induction n using Nat.strongRecOn with
  | ind n ih =>
    rw [Nat.toDigits_eq_if (by decide)] at member
    split_ifs at member with small
    · rw [List.mem_singleton.mp member]
      exact digit n small
    · rcases List.mem_append.mp member with front | last
      · exact ih (n / 16) (by omega) front
      · rw [List.mem_singleton.mp last]
        exact digit (n % 16) (Nat.mod_lt n (by decide))

theorem utf8Len_of_hex {chars : List Char} (hex : ∀ c ∈ chars, c ∈ hexDigits) :
    String.utf8Len chars = chars.length := by
  have one : ∀ c ∈ hexDigits, c.utf8Size = 1 := by
    have checked : hexDigits.all (fun c => c.utf8Size == 1) = true := by decide
    simpa using checked
  induction chars with
  | nil => rfl
  | cons c rest ih =>
    rw [List.forall_mem_cons] at hex
    rw [String.utf8Len_cons, ih hex.2, one c hex.1, List.length_cons]

theorem hexDigest_sha256 : HexDigest Sha256.hex := by
  have digits : ∀ text, ∀ c ∈ (Sha256.hex text).toList, c ∈ hexDigits := by
    intro text c member
    rw [Sha256.hex, String.toList_ofList] at member
    obtain ⟨word, -, inside⟩ := List.mem_flatMap.mp member
    rcases List.mem_append.mp inside with zero | digit
    · rw [List.eq_of_mem_replicate zero]
      decide
    · exact mem_hexDigits_of_mem_toDigits digit
  refine ⟨fun text => ?_, digits⟩
  have width : ∀ word : UInt32, (List.replicate (8 - (Nat.toDigits 16 word.toNat).length) '0' ++
      Nat.toDigits 16 word.toNat).length = 8 := by
    intro word
    have le : (Nat.toDigits 16 word.toNat).length ≤ 8 :=
      (Nat.length_toDigits_le_iff (by decide) (by decide)).mpr word.toNat_lt
    rw [List.length_append, List.length_replicate]
    omega
  rw [length_bytes, ← String.utf8Len_toList, utf8Len_of_hex (digits text), Sha256.hex,
    String.toList_ofList, List.length_flatMap]
  simp [width, Sha256.digestWords]

/-- A primitive, or a record without type parameters whose properties have different names. -/
inductive Shape.Plain : Shape → Prop
  | primitive (kind : Primitive) : Plain (.primitive kind)
  | record {properties : List Property} (names : (properties.map Property.name).Nodup)
      (ground : ∀ p ∈ properties, p.type.Ground) : Plain (.record properties [])

def Shape.properties : Shape → List Property
  | .record properties _ => properties
  | _ => []

namespace Shape.Plain
variable {s : Shape} (plain : s.Plain)
include plain

theorem names_nodup : (s.properties.map Property.name).Nodup := by
  cases plain with
  | primitive kind => exact List.nodup_nil
  | record names ground => exact names

theorem ground_of_mem : ∀ p ∈ s.properties, p.type.Ground := by
  cases plain with
  | primitive kind => simp [properties]
  | record names ground => exact ground

end Shape.Plain

/-- Every property of the one list has the text of a property of the other. -/
def Covers (d e : NodeId → String) (ps qs : List Property) : Prop :=
  ∀ p ∈ ps, ∃ q ∈ qs, propertyText d p = propertyText e q

theorem Covers.text_eq {d e : NodeId → String} (cleanD : ∀ id, Unseparated (d id))
    (cleanE : ∀ id, Unseparated (e id)) {ps qs : List Property} (covers : Covers d e ps qs)
    (groundP : ∀ p ∈ ps, p.type.Ground) (groundQ : ∀ q ∈ qs, q.type.Ground)
    (names : (qs.map Property.name).Nodup) {p q : Property} (memberP : p ∈ ps) (memberQ : q ∈ qs)
    (name : p.name = q.name) : propertyText d p = propertyText e q := by
  obtain ⟨other, memberO, same⟩ := covers p memberP
  obtain ⟨outline, -⟩ :=
    propertyText_inj cleanD cleanE (groundP p memberP) (groundQ other memberO) same
  have named : other.name = q.name := (congrArg Prod.fst outline).symm.trans name
  rwa [List.inj_on_of_nodup_map names memberO memberQ named] at same

theorem Covers.outlines {d e : NodeId → String} (cleanD : ∀ id, Unseparated (d id))
    (cleanE : ∀ id, Unseparated (e id)) {ps qs : List Property} (covers : Covers d e ps qs)
    (groundP : ∀ p ∈ ps, p.type.Ground) (groundQ : ∀ q ∈ qs, q.type.Ground) :
    ps.map Property.outline ⊆ qs.map Property.outline := by
  intro outline member
  obtain ⟨p, memberP, rfl⟩ := List.mem_map.mp member
  obtain ⟨q, memberQ, same⟩ := covers p memberP
  have equal := (propertyText_inj cleanD cleanE (groundP p memberP) (groundQ q memberQ) same).1
  exact List.mem_map.mpr ⟨q, memberQ, equal.symm⟩

theorem primitiveEntries (hash : Hash) (d : NodeId → String) (kind : Primitive) :
    shapeEntries hash d (.primitive kind) =
      entry "token" "primitive" ++ entry "name" kind.label := by
  simp [shapeEntries, Shape.generics, Shape.label, contentEntries]

theorem recordEntries (hash : Hash) (d : NodeId → String) (ps : List Property) :
    shapeEntries hash d (.record ps []) = entry "token" "record" ++
      (((ps.map fun p => hash (bytes (propertyText d p))).mergeSort
        fun a b => !decide (b < a)).flatMap (entry "property")) := by
  simp [shapeEntries, Shape.generics, Shape.label, contentEntries]

section plain
variable {hash : Hash} (hex : HexDigest hash) {d e : NodeId → String}
include hex

theorem covers_of_recordEntries {ps qs : List Property}
    (same : shapeEntries hash d (.record ps []) = shapeEntries hash e (.record qs []))
    (free : ∀ p ∈ ps, ∀ q ∈ qs, hash (bytes (propertyText d p)) = hash (bytes (propertyText e q)) →
      bytes (propertyText d p) = bytes (propertyText e q)) : Covers d e ps qs := by
  intro p member
  have small : ∀ (f : NodeId → String) (properties : List Property),
      ∀ v ∈ (properties.map fun p => hash (bytes (propertyText f p))).mergeSort
        fun a b => !decide (b < a), (bytes v).length < 256 ^ 8 := by
    intro f properties v inside
    obtain ⟨p, -, rfl⟩ := List.mem_map.mp (List.mem_mergeSort.mp inside)
    exact hex.small _
  rw [recordEntries, recordEntries, List.append_cancel_left_eq] at same
  have hashes := flatMap_entry_inj (small d ps) (small e qs) same
  have inside :
      hash (bytes (propertyText d p)) ∈ qs.map fun q => hash (bytes (propertyText e q)) := by
    rw [← List.mem_mergeSort, ← hashes, List.mem_mergeSort]
    exact List.mem_map.mpr ⟨p, member, rfl⟩
  obtain ⟨q, memberQ, equal⟩ := List.mem_map.mp inside
  exact ⟨q, memberQ, bytes_inj (free p member q memberQ equal.symm)⟩

end plain

theorem label_inj {j k : Primitive} (same : j.label = k.label) : j = k := by
  have := congrArg Primitive.ofLabel? same
  simpa using this

theorem primitive_of_entries {hash : Hash} {d e : NodeId → String} {j k : Primitive}
    (same : shapeEntries hash d (.primitive j) = shapeEntries hash e (.primitive k)) : j = k := by
  have small : ∀ kind : Primitive, (bytes kind.label).length < 256 ^ 8 := by
    intro kind
    cases kind <;> decide +kernel
  rw [primitiveEntries, primitiveEntries, List.append_cancel_left_eq] at same
  have := congrArg (· ++ ([] : List UInt8)) same
  exact label_inj (entry_append_inj (small j) (small k) this).1

theorem recordEntries_ne_primitiveEntries (hash : Hash) (d e : NodeId → String) (ps : List Property)
    (kind : Primitive) :
    shapeEntries hash d (.record ps []) ≠ shapeEntries hash e (.primitive kind) := by
  intro same
  rw [recordEntries, primitiveEntries] at same
  have labels := (entry_append_inj (by decide +kernel) (by decide +kernel) same).1
  exact absurd labels (by decide)

end TypeLoom.Graph
