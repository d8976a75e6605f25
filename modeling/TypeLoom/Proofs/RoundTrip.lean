import Mathlib.Data.List.Basic
import Mathlib.Logic.Basic
import TypeLoom.Fact.Decode
import TypeLoom.Fact.Encode

/-! Facts can be read back from their JSON. A description of a type is written as a document that is
as deep as the description, and the reader is allowed that depth; an absent value is a null, which
is no value of any kind. Main result: a list of facts is read back exactly if its numbers are finite
and its levels and array ranks fit into 32 and 8 bits. -/
namespace TypeLoom

namespace Json

theorem slot?_map {fields : List (String × Json)} (distinct : (fields.map Prod.fst).Nodup)
    {name : String} {value : Json} (mem : (name, value) ∈ fields) :
    slot? (fields.map fun (key, value) => (some key, value)) name = some (some value) := by
  have only : (fields.map fun (key, value) => (some key, value)).filter
      (fun field => field.1 == some name) = [(some name, value)] := by
    induction fields with
    | nil => cases mem
    | cons field rest ih =>
      obtain ⟨key, first⟩ := field
      obtain ⟨fresh, distinct⟩ := List.nodup_cons.mp distinct
      rcases List.mem_cons.mp mem with here | later
      · obtain ⟨rfl, rfl⟩ := Prod.mk.inj here
        simp only [List.map_cons, List.filter_cons, beq_self_eq_true, if_true, List.cons.injEq,
          true_and, List.filter_eq_nil_iff]
        intro field mem same
        obtain ⟨other, inside, rfl⟩ := List.mem_map.mp mem
        exact fresh (List.mem_map.mpr ⟨other, inside, Option.some.inj (beq_iff_eq.mp same)⟩)
      · have ne : key ≠ name := fun same => fresh (List.mem_map.mpr ⟨_, later, same.symm⟩)
        simpa [ne] using ih distinct later
  rw [slot?, only]

theorem slots?_ofFields {names : List String} {fields : List (String × Json)}
    (keys : fields.map Prod.fst = names) (distinct : names.Nodup) :
    slots? names (ofFields fields) = some (fields.map fun field => some field.2) := by
  subst keys
  have named : ((fields.map fun (key, value) => (some key, value)).all
      fun field => field.1.isSome) = true := by simp
  have all : ∀ part ⊆ fields,
      (part.map Prod.fst).mapM (slot? (fields.map fun (key, value) => (some key, value))) =
        some (part.map fun field => some field.2) := by
    intro part sub
    induction part with
    | nil => rfl
    | cons field rest ih =>
      obtain ⟨here, later⟩ := List.cons_subset.mp sub
      rw [List.map_cons, List.mapM_cons, slot?_map distinct here, ih later]
      rfl
  rw [ofFields, slots?, if_pos named, all fields (List.Subset.refl fields)]

section values
variable {α : Type} {decode : Json → Option α} {encode : α → Json}

theorem list?_array {xs : List α} :
    list? decode (.array (xs.map encode)) = some xs ↔ ∀ x ∈ xs, decode (encode x) = some x := by
  rw [list?]
  induction xs with
  | nil => simp
  | cons x rest ih =>
    rw [List.map_cons, List.mapM_cons, List.forall_mem_cons, ← ih]
    simp [Option.bind_eq_some_iff]

/-- A value that is null itself would be taken for an absent one. -/
theorem optional?_ofOption (nothing : decode .null = none) {value : Option α} :
    optional? decode (some (ofOption encode value)) = some value ↔
      ∀ x ∈ value, decode (encode x) = some x := by
  rw [optional?, defaulted?]
  cases value with
  | none => simp [ofOption, nullable?]
  | some x =>
    simp only [ofOption, Option.mem_def, Option.some.injEq, forall_eq']
    cases json : encode x <;> simp [nullable?, nothing]

end values

@[simp] theorem text?_ofString (text : String) : text? (ofString text) = some text := rfl

@[simp] theorem optional?_text (value : Option String) :
    optional? text? (some (ofOption ofString value)) = some value :=
  (optional?_ofOption rfl).mpr fun _ _ => rfl

theorem natUpTo?_ofInt {max n : Nat} : natUpTo? max (ofInt n) = some n ↔ n ≤ max := by
  simp [natUpTo?, ofInt]

theorem double?_ofDouble {x : Double} : double? (ofDouble x) = some x ↔ x.isFinite = true := by
  rw [ofDouble]
  split_ifs with finite
  · simp [double?, finite]
  · simp [double?, finite]

theorem isSound_mono {json : Json} {depth more : Nat} (le : depth ≤ more)
    (sound : json.isSound depth = true) : json.isSound more = true := by
  induction depth generalizing json more with
  | zero => cases json <;> simp_all [isSound]
  | succ depth ih =>
    obtain ⟨more, rfl⟩ : ∃ n, more = n + 1 := ⟨more - 1, by omega⟩
    have within : depth ≤ more := by omega
    cases json with
    | array items =>
      rw [isSound, List.all_eq_true] at sound ⊢
      exact fun item mem => ih within (sound item mem)
    | object fields =>
      simp only [isSound, List.all_eq_true, Bool.and_eq_true] at sound ⊢
      exact fun field mem => ⟨(sound field mem).1, ih within (sound field mem).2⟩
    | _ => exact sound

theorem depth_le_of_mem_items {items : List Json} {item : Json} (mem : item ∈ items) :
    item.depth ≤ depthOfItems items := by
  induction items with
  | nil => cases mem
  | cons first rest ih =>
    rw [depthOfItems]
    rcases List.mem_cons.mp mem with rfl | later
    · exact Nat.le_max_left _ _
    · exact Nat.le_trans (ih later) (Nat.le_max_right _ _)

theorem depth_lt_of_mem_array {items : List Json} {item : Json} (mem : item ∈ items) :
    item.depth < (array items).depth := by
  rw [depth]
  exact Nat.lt_succ_of_le (depth_le_of_mem_items mem)

theorem depth_lt_of_mem_fields {fields : List (String × Json)} {name : String} {value : Json}
    (mem : (name, value) ∈ fields) : value.depth < (ofFields fields).depth := by
  rw [ofFields, depth, Nat.lt_succ_iff]
  induction fields with
  | nil => cases mem
  | cons first rest ih =>
    rw [List.map_cons, depthOfFields]
    rcases List.mem_cons.mp mem with here | later
    · rw [← here]
      exact Nat.le_max_left _ _
    · exact Nat.le_trans (ih later) (Nat.le_max_right _ _)

/-- All texts and numbers have a value. -/
def IsWhole (json : Json) : Prop := json.isSound json.depth = true

theorem IsWhole.isSound {json : Json} (whole : json.IsWhole) {depth : Nat}
    (deep : json.depth ≤ depth) : json.isSound depth = true :=
  isSound_mono deep whole

theorem isWhole_array {items : List Json} (all : ∀ item ∈ items, item.IsWhole) :
    (array items).IsWhole := by
  rw [IsWhole, depth, Json.isSound, List.all_eq_true]
  exact fun item mem => (all item mem).isSound (depth_le_of_mem_items mem)

theorem isWhole_ofFields {fields : List (String × Json)}
    (all : ∀ field ∈ fields, field.2.IsWhole) : (ofFields fields).IsWhole := by
  have deep : ∀ field ∈ fields, field.2.depth < (ofFields fields).depth :=
    fun _ mem => depth_lt_of_mem_fields mem
  rw [ofFields, depth] at deep
  rw [IsWhole, ofFields, depth, Json.isSound, List.all_map, List.all_eq_true]
  intro field mem
  exact (all field mem).isSound (Nat.lt_succ_iff.mp (deep field mem))

theorem isWhole_ofOption {α : Type} {encode : α → Json} {value : Option α}
    (all : ∀ x ∈ value, (encode x).IsWhole) : (ofOption encode value).IsWhole := by
  cases value with
  | none => rfl
  | some x => exact all x rfl

@[simp] theorem isWhole_ofString (text : String) : (ofString text).IsWhole := rfl

@[simp] theorem isWhole_ofInt (n : Int) : (ofInt n).IsWhole := rfl

@[simp] theorem isWhole_bool (value : Bool) : (bool value).IsWhole := rfl

@[simp] theorem isWhole_ofDouble (x : Double) : (ofDouble x).IsWhole := by
  rw [ofDouble]
  split_ifs <;> rfl

end Json

namespace Fact
open Json (ofString ofInt ofDouble ofFields ofOption text? bool? natUpTo? double? list? choice?
  slots? required? defaulted? optional? slots?_ofFields list?_array optional?_ofOption
  isWhole_ofFields isWhole_array isWhole_ofOption depth_lt_of_mem_fields depth_lt_of_mem_array)

def EnumValue.isWritable : EnumValue → Bool
  | .number value => value.isFinite
  | .text _ => true

/-- The numbers and array ranks in a description itself, not in its parts, can be written. -/
def TypeExpr.ownWritable : TypeExpr → Bool
  | .numberLiteral value => value.isFinite
  | .enumLiteral _ _ value => value.all EnumValue.isWritable
  | .enumeration members => members.all fun entry => entry.value.all EnumValue.isWritable
  | .object properties _ => properties.all fun p => decide (p.arrayDepth ≤ 255)
  | _ => true

/-- All numbers are finite and all array ranks fit into 8 bits. -/
inductive TypeExpr.Writable : TypeExpr → Prop
  | intro {type : TypeExpr} (own : type.ownWritable = true)
      (parts : ∀ part ∈ type.parts, part.Writable) : type.Writable

theorem TypeExpr.writable_iff {type : TypeExpr} :
    type.Writable ↔ type.ownWritable = true ∧ ∀ part ∈ type.parts, part.Writable := by
  constructor
  · intro writable
    obtain ⟨own, parts⟩ := writable
    exact ⟨own, parts⟩
  · intro both
    exact .intro both.1 both.2

def PropertyFact.toJson (p : PropertyFact) : Json :=
  ofFields
    [("name", ofString p.name), ("type", p.type.toJson), ("optional", .bool p.optional),
     ("readonly", .bool p.readonly), ("arrayDepth", ofInt p.arrayDepth),
     ("comment", ofOption ofString p.comment), ("initializer", ofOption ofString p.initializer)]

def IndexSignature.toJson (s : IndexSignature) : Json :=
  ofFields [("key", ofString s.key.label), ("value", s.value.toJson)]

theorem typesToJson_eq (types : List TypeExpr) : typesToJson types = types.map TypeExpr.toJson := by
  induction types with
  | nil => rfl
  | cons type rest ih => rw [typesToJson, ih, List.map_cons]

theorem propertiesToJson_eq (properties : List PropertyFact) :
    propertiesToJson properties = properties.map PropertyFact.toJson := by
  induction properties with
  | nil => rfl
  | cons property rest ih =>
    obtain ⟨name, type, optional, readonly, arrayDepth, comment, initializer⟩ := property
    rw [propertiesToJson, ih, List.map_cons, PropertyFact.toJson]

theorem signaturesToJson_eq (signatures : List IndexSignature) :
    signaturesToJson signatures = signatures.map IndexSignature.toJson := by
  induction signatures with
  | nil => rfl
  | cons signature rest ih =>
    obtain ⟨key, value⟩ := signature
    rw [signaturesToJson, ih, List.map_cons, IndexSignature.toJson]

theorem EnumValue.ofJson?_toJson {value : EnumValue} :
    EnumValue.ofJson? value.toJson = some value ↔ value.isWritable = true := by
  cases value with
  | number x =>
    rw [isWritable, ← Json.double?_ofDouble, EnumValue.ofJson?, toJson]
    cases read : double? (ofDouble x) <;> simp
  | text value => simp [EnumValue.ofJson?, toJson, ofString, double?, text?, isWritable]

theorem optional?_enumValue {value : Option EnumValue} :
    optional? EnumValue.ofJson? (some (ofOption EnumValue.toJson value)) = some value ↔
      value.all EnumValue.isWritable = true := by
  rw [optional?_ofOption rfl]
  simp [EnumValue.ofJson?_toJson, Option.all_eq_true]

theorem EnumEntry.ofJson?_toJson {entry : EnumEntry} :
    EnumEntry.ofJson? entry.toJson = some entry ↔
      entry.value.all EnumValue.isWritable = true := by
  obtain ⟨name, value⟩ := entry
  rw [EnumEntry.ofJson?, toJson, slots?_ofFields (by rfl) (by decide), ← optional?_enumValue]
  simp [required?, Option.bind_eq_some_iff]

section parts
variable {type? : Json → Option TypeExpr}

theorem PropertyFact.ofJson?_toJson {p : PropertyFact} :
    PropertyFact.ofJson? type? p.toJson = some p ↔
      type? p.type.toJson = some p.type ∧ p.arrayDepth ≤ 255 := by
  obtain ⟨name, type, optional, readonly, arrayDepth, comment, initializer⟩ := p
  rw [PropertyFact.ofJson?, toJson, slots?_ofFields (by rfl) (by decide), ← Json.natUpTo?_ofInt]
  simp [required?, defaulted?, bool?, Option.bind_eq_some_iff]

theorem IndexSignature.ofJson?_toJson {s : IndexSignature} :
    IndexSignature.ofJson? type? s.toJson = some s ↔ type? s.value.toJson = some s.value := by
  obtain ⟨key, value⟩ := s
  rw [IndexSignature.ofJson?, toJson, slots?_ofFields (by rfl) (by decide)]
  simp [required?, choice?, ofString, Option.bind_eq_some_iff]

end parts

theorem taggedParts?_tagged {nested : Bool} {label : String} {fields : List (String × Json)}
    (apart : "kind" ∉ fields.map Prod.fst) :
    taggedParts? nested (tagged label fields) = some (label, ofFields fields) := by
  have others : (fields.map fun (key, value) => (some key, value)).filter
      (fun field => field.1 == some "kind") = [] := by
    rw [List.filter_eq_nil_iff]
    intro field mem same
    obtain ⟨other, inside, rfl⟩ := List.mem_map.mp mem
    exact apart (List.mem_map.mpr ⟨other, inside, Option.some.inj (beq_iff_eq.mp same)⟩)
  have kept : (fields.map fun (key, value) => (some key, value)).filter
      (fun field => field.1 != some "kind") = fields.map fun (key, value) => (some key, value) := by
    rw [List.filter_eq_self]
    intro field mem
    obtain ⟨other, inside, rfl⟩ := List.mem_map.mp mem
    exact bne_iff_ne.mpr fun same => apart (List.mem_map.mpr ⟨other, inside, Option.some.inj same⟩)
  simp only [tagged, ofFields, List.map_cons, taggedParts?, List.filter_cons, others, kept]
  rfl

theorem ofNested?_tagged {level : Nat} {nested : Bool} {label : String}
    {fields : List (String × Json)} (apart : "kind" ∉ fields.map Prod.fst) :
    TypeExpr.ofNested? (level + 1) nested (tagged label fields) =
      TypeExpr.ofParts? (TypeExpr.ofNested? level true) label (ofFields fields) := by
  rw [TypeExpr.ofNested?, taggedParts?_tagged apart]
  rfl

theorem TypeExpr.ofNested?_succ {level : Nat} {nested : Bool} {type : TypeExpr} :
    TypeExpr.ofNested? (level + 1) nested type.toJson = some type ↔ type.ownWritable = true ∧
      ∀ part ∈ type.parts, TypeExpr.ofNested? level true part.toJson = some part := by
  cases type with
  | primitive kind =>
    rw [toJson, ofNested?_tagged (by simp), ofParts?, slots?_ofFields (by rfl) (by decide)]
    simp [required?, choice?, ofString, ownWritable, parts]
  | stringLiteral value =>
    rw [toJson, ofNested?_tagged (by simp), ofParts?, slots?_ofFields (by rfl) (by decide)]
    simp [required?, ownWritable, parts]
  | numberLiteral value =>
    rw [toJson, ofNested?_tagged (by simp), ofParts?, slots?_ofFields (by rfl) (by decide),
      ownWritable, ← Json.double?_ofDouble]
    simp [required?, Option.bind_eq_some_iff, parts]
  | booleanLiteral value =>
    rw [toJson, ofNested?_tagged (by simp), ofParts?, slots?_ofFields (by rfl) (by decide)]
    simp [required?, bool?, ownWritable, parts]
  | enumLiteral enumName member value =>
    rw [toJson, ofNested?_tagged (by simp), ofParts?, slots?_ofFields (by rfl) (by decide),
      ownWritable, ← optional?_enumValue]
    simp [required?, Option.bind_eq_some_iff, parts]
  | union members =>
    rw [toJson, ofNested?_tagged (by simp), ofParts?, slots?_ofFields (by rfl) (by decide),
      typesToJson_eq, parts, ← list?_array]
    simp [required?, Option.bind_eq_some_iff, ownWritable]
  | enumeration members =>
    rw [toJson, ofNested?_tagged (by simp), ofParts?, slots?_ofFields (by rfl) (by decide),
      ownWritable, List.all_eq_true]
    simp only [← EnumEntry.ofJson?_toJson]
    rw [← list?_array]
    simp [required?, Option.bind_eq_some_iff, parts]
  | object properties signatures =>
    have props : list? (PropertyFact.ofJson? (TypeExpr.ofNested? level true))
        (.array (properties.map PropertyFact.toJson)) = some properties ↔
        (properties.all fun p => decide (p.arrayDepth ≤ 255)) = true ∧
          ∀ part ∈ properties.map PropertyFact.type,
            TypeExpr.ofNested? level true part.toJson = some part := by
      rw [list?_array, List.forall_mem_map, List.all_eq_true, ← forall₂_and]
      simp only [PropertyFact.ofJson?_toJson, decide_eq_true_eq, and_comm]
    have sigs : list? (IndexSignature.ofJson? (TypeExpr.ofNested? level true))
        (.array (signatures.map IndexSignature.toJson)) = some signatures ↔
          ∀ part ∈ signatures.map IndexSignature.value,
            TypeExpr.ofNested? level true part.toJson = some part := by
      simp [list?_array, IndexSignature.ofJson?_toJson]
    rw [toJson, ofNested?_tagged (by simp), ofParts?, slots?_ofFields (by rfl) (by decide),
      propertiesToJson_eq, signaturesToJson_eq, parts, List.forall_mem_append, ← sigs, ← and_assoc,
      ownWritable, ← props]
    simp [defaulted?, Option.bind_eq_some_iff]
  | array element =>
    rw [toJson, ofNested?_tagged (by simp), ofParts?, slots?_ofFields (by rfl) (by decide)]
    simp [required?, Option.bind_eq_some_iff, ownWritable, parts]
  | tuple elements =>
    rw [toJson, ofNested?_tagged (by simp), ofParts?, slots?_ofFields (by rfl) (by decide),
      typesToJson_eq, parts, ← list?_array]
    simp [required?, Option.bind_eq_some_iff, ownWritable]
  | reference name origin arguments =>
    rw [toJson, ofNested?_tagged (by simp), ofParts?, slots?_ofFields (by rfl) (by decide),
      typesToJson_eq, parts, ← list?_array]
    simp [required?, defaulted?, Option.bind_eq_some_iff, ownWritable]
  | parameter name =>
    rw [toJson, ofNested?_tagged (by simp), ofParts?, slots?_ofFields (by rfl) (by decide)]
    simp [required?, ownWritable, parts]

theorem depth_lt_of_mem_tagged (label : String) {fields : List (String × Json)} {name : String}
    {value : Json} (mem : (name, value) ∈ fields) : value.depth < (tagged label fields).depth :=
  depth_lt_of_mem_fields (List.mem_cons_of_mem _ mem)

theorem depth_lt_of_mem_list (label : String) {α : Type} {fields : List (String × Json)}
    {name : String} {encode : α → Json} {items : List α} {item : α}
    (mem : (name, .array (items.map encode)) ∈ fields)
    (inside : item ∈ items) : (encode item).depth < (tagged label fields).depth :=
  Nat.lt_trans (depth_lt_of_mem_array (List.mem_map_of_mem inside))
    (depth_lt_of_mem_tagged label mem)

theorem TypeExpr.depth_lt_of_mem_parts {whole part : TypeExpr} (mem : part ∈ whole.parts) :
    part.toJson.depth < whole.toJson.depth := by
  cases whole with
  | union members | tuple members =>
    rw [toJson, typesToJson_eq]
    exact depth_lt_of_mem_list _ List.mem_cons_self mem
  | reference name origin arguments =>
    rw [toJson, typesToJson_eq]
    exact depth_lt_of_mem_list _
      (List.mem_cons_of_mem _ (List.mem_cons_of_mem _ List.mem_cons_self)) mem
  | array element =>
    rw [List.mem_singleton.mp mem, toJson]
    exact depth_lt_of_mem_tagged _ List.mem_cons_self
  | object properties signatures =>
    rw [toJson, propertiesToJson_eq, signaturesToJson_eq]
    rcases List.mem_append.mp mem with inside | inside
    · obtain ⟨property, listed, rfl⟩ := List.mem_map.mp inside
      have inner : property.type.toJson.depth < property.toJson.depth :=
        depth_lt_of_mem_fields (List.mem_cons_of_mem _ List.mem_cons_self)
      exact Nat.lt_trans inner (depth_lt_of_mem_list _ List.mem_cons_self listed)
    · obtain ⟨signature, listed, rfl⟩ := List.mem_map.mp inside
      have inner : signature.value.toJson.depth < signature.toJson.depth :=
        depth_lt_of_mem_fields (List.mem_cons_of_mem _ List.mem_cons_self)
      exact Nat.lt_trans inner
        (depth_lt_of_mem_list _ (List.mem_cons_of_mem _ List.mem_cons_self) listed)
  | _ => cases mem

theorem TypeExpr.depth_pos (type : TypeExpr) : 0 < type.toJson.depth := by
  cases type <;> exact Nat.succ_pos _

theorem TypeExpr.ofNested?_toJson {level : Nat} {nested : Bool} {type : TypeExpr}
    (deep : type.toJson.depth ≤ level) :
    TypeExpr.ofNested? level nested type.toJson = some type ↔ type.Writable := by
  induction level generalizing nested type with
  | zero => exact absurd type.depth_pos (Nat.not_lt.mpr deep)
  | succ level ih =>
    rw [TypeExpr.ofNested?_succ, writable_iff]
    refine and_congr_right fun _ => forall₂_congr fun part listed => ih ?_
    exact Nat.le_of_lt_succ (Nat.lt_of_lt_of_le (depth_lt_of_mem_parts listed) deep)

theorem EnumValue.isWhole_toJson (value : EnumValue) : value.toJson.IsWhole := by
  cases value <;> simp [toJson]

theorem EnumEntry.isWhole_toJson (entry : EnumEntry) : entry.toJson.IsWhole := by
  refine isWhole_ofFields ?_
  simp [isWhole_ofOption, EnumValue.isWhole_toJson]

theorem isWhole_tagged {label : String} {fields : List (String × Json)}
    (all : ∀ field ∈ fields, field.2.IsWhole) : (tagged label fields).IsWhole :=
  isWhole_ofFields (List.forall_mem_cons.mpr ⟨rfl, all⟩)

theorem isWhole_list {α : Type} {encode : α → Json} {items : List α}
    (all : ∀ item ∈ items, (encode item).IsWhole) : (Json.array (items.map encode)).IsWhole :=
  isWhole_array (List.forall_mem_map.mpr all)

theorem TypeExpr.isWhole_toJson (type : TypeExpr) : type.toJson.IsWhole := by
  induction type using TypeExpr.induction_parts with
  | step type whole =>
  cases type with
  | union members | tuple members =>
    rw [toJson, typesToJson_eq]
    exact isWhole_tagged (List.forall_mem_singleton.mpr (isWhole_list whole))
  | reference name origin arguments =>
    rw [toJson, typesToJson_eq]
    refine isWhole_tagged ?_
    have arguments : (Json.array (arguments.map toJson)).IsWhole := isWhole_list whole
    simp [isWhole_ofOption, arguments]
  | array element =>
    rw [toJson]
    exact isWhole_tagged (List.forall_mem_singleton.mpr (whole element List.mem_cons_self))
  | object properties signatures =>
    have props : ∀ p ∈ properties, p.toJson.IsWhole := by
      intro p listed
      refine isWhole_ofFields ?_
      simp [isWhole_ofOption, whole p.type (List.mem_append_left _ (List.mem_map_of_mem listed))]
    have sigs : ∀ s ∈ signatures, s.toJson.IsWhole := by
      intro s listed
      refine isWhole_ofFields ?_
      simp [whole s.value (List.mem_append_right _ (List.mem_map_of_mem listed))]
    rw [toJson, propertiesToJson_eq, signaturesToJson_eq]
    refine isWhole_tagged ?_
    simp [isWhole_list props, isWhole_list sigs]
  | enumeration members =>
    rw [toJson]
    exact isWhole_tagged
      (List.forall_mem_singleton.mpr (isWhole_list fun entry _ => entry.isWhole_toJson))
  | enumLiteral enumName member value =>
    rw [toJson]
    refine isWhole_tagged ?_
    simp [isWhole_ofOption, EnumValue.isWhole_toJson]
  | primitive _ | stringLiteral _ | numberLiteral _ | booleanLiteral _ | parameter _ =>
    rw [toJson]
    exact isWhole_tagged (List.forall_mem_singleton.mpr (by simp))

theorem TypeExpr.ofJson?_toJson {depth : Nat} {type : TypeExpr} (deep : type.toJson.depth ≤ depth) :
    TypeExpr.ofJson? depth type.toJson = some type ↔ type.Writable := by
  rw [TypeExpr.ofJson?, if_pos (type.isWhole_toJson.isSound deep), TypeExpr.ofNested?_toJson deep]

/-- All numbers are finite, and the level and all array ranks fit into 32 and 8 bits. -/
structure Writable (f : Fact) : Prop where
  level : f.level ≤ 0xFFFFFFFF
  types : ∀ type ∈ f.types, type.Writable

theorem TypeExpr.ofJson?_null (depth : Nat) : TypeExpr.ofJson? depth .null = none := by
  cases depth <;> rfl

theorem optional?_type {depth : Nat} {value : Option TypeExpr}
    (deep : (ofOption TypeExpr.toJson value).depth ≤ depth) :
    optional? (TypeExpr.ofJson? depth) (some (ofOption TypeExpr.toJson value)) = some value ↔
      ∀ type ∈ value, type.Writable := by
  rw [optional?_ofOption (TypeExpr.ofJson?_null depth)]
  refine forall₂_congr fun type isType => TypeExpr.ofJson?_toJson ?_
  rw [Option.mem_def.mp isType] at deep
  exact deep

theorem TypeParameter.ofJson?_toJson {depth : Nat} {p : TypeParameter}
    (deep : p.toJson.depth ≤ depth) :
    TypeParameter.ofJson? depth p.toJson = some p ↔ ∀ type ∈ p.default, type.Writable := by
  have inner : (ofOption TypeExpr.toJson p.default).depth < p.toJson.depth :=
    depth_lt_of_mem_fields (List.mem_cons_of_mem _ List.mem_cons_self)
  obtain ⟨name, default⟩ := p
  rw [TypeParameter.ofJson?, toJson, slots?_ofFields (by rfl) (by decide),
    ← optional?_type (Nat.le_sub_one_of_lt (Nat.lt_of_lt_of_le inner deep))]
  simp [required?, Option.bind_eq_some_iff]

theorem constantSlots?_ofFields {form : Form} {fields : List (String × Json)}
    (keys : fields.map Prod.fst = ["initializer", "declared"]) :
    constantSlots? form (ofFields fields) = some (fields.map fun field => some field.2) := by
  cases form <;> exact slots?_ofFields keys (by decide)

theorem Body.ofJson?_toJson (form : Form) {depth : Nat} {body : Body}
    (deep : body.toJson.depth ≤ depth) :
    Body.ofJson? form depth body.toJson = some body ↔ ∀ type ∈ body.types, type.Writable := by
  cases body with
  | type described =>
    have inner : described.toJson.depth < (Body.type described).toJson.depth :=
      depth_lt_of_mem_fields List.mem_cons_self
    rw [types, List.forall_mem_singleton,
      ← TypeExpr.ofJson?_toJson (Nat.le_sub_one_of_lt (Nat.lt_of_lt_of_le inner deep))]
    simp [toJson, ofFields, Body.ofJson?]
  | constant initializer declared =>
    have inner : (ofOption TypeExpr.toJson declared).depth + 1 <
        (Body.constant initializer declared).toJson.depth :=
      Nat.lt_of_le_of_lt
        (depth_lt_of_mem_fields (List.mem_cons_of_mem ("initializer", _) List.mem_cons_self))
        (depth_lt_of_mem_fields List.mem_cons_self)
    have within : (ofOption TypeExpr.toJson declared).depth ≤ depth - 2 := by omega
    rw [types, toJson, ofFields, List.map_cons, List.map_nil, Body.ofJson?,
      constantSlots?_ofFields (by rfl)]
    simpa [required?, Option.bind_eq_some_iff] using optional?_type within

theorem writable_iff {f : Fact} : f.Writable ↔ f.level ≤ 0xFFFFFFFF ∧
    (∀ type ∈ f.typeParameters.filterMap TypeParameter.default, type.Writable) ∧
      ∀ type ∈ f.body.types, type.Writable := by
  rw [← List.forall_mem_append]
  exact ⟨fun writable => ⟨writable.level, writable.types⟩, fun both => ⟨both.1, both.2⟩⟩

theorem ofJson?_toJson (form : Form) {depth : Nat} {f : Fact} (deep : f.toJson.depth ≤ depth) :
    ofJson? form depth f.toJson = some f ↔ f.Writable := by
  have body : f.body.toJson.depth < f.toJson.depth :=
    depth_lt_of_mem_fields (show ("body", f.body.toJson) ∈ _ by simp)
  have outer : (Json.array (f.typeParameters.map TypeParameter.toJson)).depth < f.toJson.depth :=
    depth_lt_of_mem_fields (show ("typeParameters", _) ∈ _ by simp)
  have defaults : list? (TypeParameter.ofJson? (depth - 2))
      (.array (f.typeParameters.map TypeParameter.toJson)) = some f.typeParameters ↔
        ∀ type ∈ f.typeParameters.filterMap TypeParameter.default, type.Writable := by
    rw [list?_array, List.forall_mem_filterMap]
    refine forall₂_congr fun p listed => TypeParameter.ofJson?_toJson ?_
    have inner := depth_lt_of_mem_array (List.mem_map_of_mem (f := TypeParameter.toJson) listed)
    omega
  have render : optional? bool? (some (ofOption Json.bool f.render)) = some f.render :=
    (optional?_ofOption rfl).mpr fun _ _ => rfl
  rw [writable_iff, ← defaults,
    ← Body.ofJson?_toJson form (Nat.le_sub_one_of_lt (Nat.lt_of_lt_of_le body deep)),
    ← Json.natUpTo?_ofInt]
  obtain ⟨name, origin, level, isPublic, internal, rendered, comment, typeParameters, body⟩ := f
  rw [ofJson?, toJson, slots?_ofFields (by rfl) (by decide)]
  simp [required?, defaulted?, bool?, render, Option.bind_eq_some_iff]

theorem listWithin?_listToJson (form : Form) {depth : Nat} {facts : List Fact}
    (deep : (listToJson facts).depth ≤ depth) :
    listWithin? form depth (listToJson facts) = some facts ↔ ∀ fact ∈ facts, fact.Writable := by
  rw [listWithin?, listToJson, list?_array]
  refine forall₂_congr fun fact listed => ofJson?_toJson form ?_
  have inner := depth_lt_of_mem_array (List.mem_map_of_mem (f := toJson) listed)
  rw [listToJson] at deep
  omega

/-- Facts are read back from the JSON value that they are written as exactly if they can be
written. -/
theorem listOfJson_listToJson_iff (facts : List Fact) :
    listOfJson? (listToJson facts) = some facts ↔ ∀ fact ∈ facts, fact.Writable :=
  listWithin?_listToJson .value (Nat.le_refl _)

end Fact

end TypeLoom
