import Mathlib.Order.MinMax
import Mathlib.Tactic.SplitIfs
import TypeLoom.Code.Lower

/-! Constants without a declared type. The type of an array is taken from its items other than null,
and the items are then written for that type. So an array of numbers or booleans that also has a
null does not fit its own type, nor does one that is nested more deeply than types can say; all
others fit. -/
namespace TypeLoom

/-- A primitive type with array ranks around it. -/
structure Ranked where
  kind : Primitive
  depth : Nat
deriving DecidableEq

namespace Ranked

def object : Ranked := ⟨.object, 0⟩

def type (r : Ranked) : Code.TypeRef := (Code.primitiveType r.kind).arrays r.depth

def deepen (r : Ranked) : Ranked := ⟨r.kind, min TypeUse.maxDepth (r.depth + 1)⟩

/-- The type that all have in common, or else `object`. -/
def common : List Ranked → Ranked
  | [] => object
  | first :: rest => if rest.all (· = first) then first else object

theorem eq_common {rs : List Ranked} (other : common rs ≠ object) :
    rs ≠ [] ∧ ∀ r ∈ rs, r = common rs := by
  cases rs with
  | nil => exact absurd rfl other
  | cons first rest =>
    rw [common] at other ⊢
    split_ifs at other ⊢ with all
    · refine ⟨List.cons_ne_nil _ _, List.forall_mem_cons.mpr ⟨rfl, ?_⟩⟩
      simpa using all
    · exact absurd rfl other

end Ranked

namespace Literal

mutual

def Value.ranked : Value → Ranked
  | .null => .object
  | .bool _ => ⟨.boolean, 0⟩
  | .number _ => ⟨.number, 0⟩
  | .text _ => ⟨.string, 0⟩
  | .array items => (Ranked.common (itemTypes items)).deepen

/-- Types of the items other than null. -/
def itemTypes : List Value → List Ranked
  | [] => []
  | item :: rest => if item.isNull then itemTypes rest else item.ranked :: itemTypes rest

end

mutual

def Value.nesting : Value → Nat
  | .null | .bool _ | .number _ | .text _ => 0
  | .array items => nestings items + 1

def nestings : List Value → Nat
  | [] => 0
  | item :: rest => max item.nesting (nestings rest)

end

/-- Values whose types have no null. -/
def Value.isBare : Value → Bool
  | .bool _ | .number _ => true
  | .null | .text _ | .array _ => false

mutual

/-- No array has a null beside a boolean or a number. -/
def Value.gapless : Value → Bool
  | .null | .bool _ | .number _ | .text _ => true
  | .array items => !(items.any Value.isNull && items.any Value.isBare) && allGapless items

def allGapless : List Value → Bool
  | [] => true
  | item :: rest => item.gapless && allGapless rest

end

theorem Value.induction_items {motive : Value → Prop} (null : motive .null)
    (bool : ∀ b, motive (.bool b)) (number : ∀ x, motive (.number x)) (text : ∀ t, motive (.text t))
    (array : ∀ items, (∀ item ∈ items, motive item) → motive (.array items)) (v : Value) :
    motive v := by
  induction size : sizeOf v using Nat.strongRecOn generalizing v with
  | ind n ih =>
    subst size
    cases v with
    | null => exact null
    | bool b => exact bool b
    | number x => exact number x
    | text t => exact text t
    | array items =>
      refine array items fun item member => ih _ ?_ item rfl
      have small := List.sizeOf_lt_of_mem member
      simp only [Value.array.sizeOf_spec]
      omega

theorem itemTypes_eq (items : List Value) :
    itemTypes items = (items.filter fun item => !item.isNull).map Value.ranked := by
  induction items with
  | nil => rfl
  | cons item rest ih =>
    rw [itemTypes, ih]
    cases null : item.isNull <;> simp [null]

theorem nestings_le_iff {items : List Value} {n : Nat} :
    nestings items ≤ n ↔ ∀ item ∈ items, item.nesting ≤ n := by
  induction items with
  | nil => simp [nestings]
  | cons item rest ih => rw [nestings, max_le_iff, ih, List.forall_mem_cons]

theorem allGapless_iff {items : List Value} :
    allGapless items = true ↔ ∀ item ∈ items, item.gapless = true := by
  induction items with
  | nil => simp [allGapless]
  | cons item rest ih => rw [allGapless, Bool.and_eq_true, ih, List.forall_mem_cons]

theorem isNull_iff {v : Value} : v.isNull = true ↔ v = .null := by
  cases v <;> simp [Value.isNull]

/-- Items that have this type, nulls aside. -/
structure Uniform (items : List Value) (r : Ranked) : Prop where
  filled : ∃ item ∈ items, item ≠ .null
  all : ∀ item ∈ items, item ≠ .null → item.ranked = r

theorem uniform_common {items : List Value} (other : Ranked.common (itemTypes items) ≠ .object) :
    Uniform items (Ranked.common (itemTypes items)) := by
  obtain ⟨some, all⟩ := Ranked.eq_common other
  constructor
  · obtain ⟨r, member⟩ := List.exists_mem_of_ne_nil _ some
    rw [itemTypes_eq] at member
    obtain ⟨item, kept, -⟩ := List.mem_map.mp member
    obtain ⟨inside, notNull⟩ := List.mem_filter.mp kept
    refine ⟨item, inside, ?_⟩
    rintro rfl
    cases notNull
  · intro item inside notNull
    refine all _ ?_
    rw [itemTypes_eq]
    refine List.mem_map_of_mem (List.mem_filter.mpr ⟨inside, ?_⟩)
    rw [Bool.not_eq_true', ← Bool.not_eq_true, isNull_iff]
    exact notNull

theorem uniform_of_kind {items : List Value} (other : (Value.array items).ranked.kind ≠ .object) :
    Uniform items (Ranked.common (itemTypes items)) := by
  refine uniform_common fun same => other ?_
  rw [Value.ranked, same]
  rfl

theorem Uniform.depth_eq {items : List Value} {r : Ranked} (uniform : Uniform items r)
    (each : ∀ item ∈ items, item ≠ .null → item.ranked.depth = min TypeUse.maxDepth item.nesting) :
    r.depth = min TypeUse.maxDepth (nestings items) := by
  have depth (item : Value) (inside : item ∈ items) (notNull : item ≠ .null) :
      r.depth = min TypeUse.maxDepth item.nesting := by
    rw [← uniform.all item inside notNull]
    exact each item inside notNull
  obtain ⟨first, inside, notNull⟩ := uniform.filled
  have own := depth first inside notNull
  have least := nestings_le_iff.mp le_rfl first inside
  by_cases full : r.depth = TypeUse.maxDepth
  · omega
  · have most : nestings items ≤ r.depth := by
      refine nestings_le_iff.mpr fun item member => ?_
      by_cases null : item = .null
      · rw [null]
        exact Nat.zero_le _
      · have := depth item member null
        omega
    omega

theorem depth_eq {v : Value} (other : v.ranked.kind ≠ .object) :
    v.ranked.depth = min TypeUse.maxDepth v.nesting := by
  induction v using Value.induction_items with
  | array items ih =>
    have uniform := uniform_of_kind other
    have depth := uniform.depth_eq fun item inside notNull => by
      refine ih item inside ?_
      rw [uniform.all item inside notNull]
      exact other
    rw [Value.ranked, Ranked.deepen, Value.nesting]
    dsimp only
    omega
  | null => exact absurd rfl other
  | _ => exact (min_eq_right (Nat.zero_le _)).symm

theorem kind_cases (v : Value) : v.ranked.kind = .object ∨ v.ranked.kind = .boolean ∨
    v.ranked.kind = .number ∨ v.ranked.kind = .string := by
  induction v using Value.induction_items with
  | array items ih =>
    by_cases other : (Value.array items).ranked.kind = .object
    · exact .inl other
    · have uniform := uniform_of_kind other
      obtain ⟨item, inside, notNull⟩ := uniform.filled
      have own := ih item inside
      rwa [uniform.all item inside notNull] at own
  | null => exact .inl rfl
  | bool _ => exact .inr (.inl rfl)
  | number _ => exact .inr (.inr (.inl rfl))
  | text _ => exact .inr (.inr (.inr rfl))

theorem isBare_iff {v : Value} :
    v.isBare = true ↔ v.ranked = ⟨.boolean, 0⟩ ∨ v.ranked = ⟨.number, 0⟩ := by
  cases v <;> simp [Value.isBare, Value.ranked, Ranked.object, Ranked.deepen, TypeUse.maxDepth]

end Literal

namespace Code
open TypeLoom.Literal

/-- An expression may stand where a value of the type is expected. -/
inductive Fits : TypeRef → Expr → Prop
  | null {type : TypeRef} (bool : type ≠ .plain "bool") (double : type ≠ .plain "double") :
      Fits type .null
  | default (type : TypeRef) : Fits type .default
  | bool {type : TypeRef} (value : Bool) (own : type = .plain "bool" ∨ type = .object) :
      Fits type (.bool value)
  | number {type : TypeRef} (value : Double) (own : type = .plain "double" ∨ type = .object) :
      Fits type (.number value)
  | text {type : TypeRef} (value : String) (own : type = .plain "string" ∨ type = .object) :
      Fits type (.text value)
  | array {type element : TypeRef} {items : List Expr}
      (own : type = .array element ∨ type = .object) (all : ∀ item ∈ items, Fits element item) :
      Fits type (.array element items)

theorem fits_null_iff {type : TypeRef} :
    Fits type .null ↔ type ≠ .plain "bool" ∧ type ≠ .plain "double" := by
  constructor
  · rintro ⟨bool, double⟩
    exact ⟨bool, double⟩
  · rintro ⟨bool, double⟩
    exact .null bool double

theorem fits_array_iff {type element : TypeRef} {items : List Expr} :
    Fits type (.array element items) ↔
      (type = .array element ∨ type = .object) ∧ ∀ item ∈ items, Fits element item := by
  constructor
  · rintro ⟨⟩
    exact ⟨‹_›, ‹_›⟩
  · rintro ⟨own, all⟩
    exact .array own all

theorem valueExprs_eq (type : TypeRef) (items : List Value) :
    valueExprs type items = items.map (valueExpr true type) := by
  induction items with
  | nil => rfl
  | cons item rest ih => rw [valueExprs, ih, List.map_cons]

theorem fits_valueExpr_array {type : TypeRef} {items : List Value} :
    Fits (.array type) (valueExpr true (.array type) (.array items)) ↔
      ∀ item ∈ items, Fits type (valueExpr true type item) := by
  rw [valueExpr, valueExprs_eq, fits_array_iff, and_iff_right (.inl rfl), List.forall_mem_map]
  rfl

theorem primitiveType_ne_object {v : Value} (other : v.ranked.kind ≠ .object) :
    primitiveType v.ranked.kind ≠ .object := by
  rcases (kind_cases v).resolve_left other with kind | kind | kind <;> rw [kind] <;>
    simp [primitiveType, TypeRef.plain, TypeRef.object]

theorem type_ne_iff {r : Ranked} : r.type ≠ .plain "bool" ∧ r.type ≠ .plain "double" ↔
    ¬ (r = ⟨.boolean, 0⟩ ∨ r = ⟨.number, 0⟩) := by
  obtain ⟨kind, depth⟩ := r
  cases depth <;> cases kind <;>
    simp [Ranked.type, primitiveType, TypeRef.arrays, TypeRef.plain, TypeRef.object]

theorem fits_objects_null (depth : Nat) : Fits (TypeRef.object.arrays depth) .null :=
  fits_null_iff.mpr ((@type_ne_iff ⟨.object, depth⟩).mpr (by simp))

theorem fits_object (v : Value) : Fits .object (valueExpr true .object v) := by
  induction v using Value.induction_items with
  | null => exact fits_objects_null 0
  | bool b => exact .bool b (.inr rfl)
  | number x => exact .number x (.inr rfl)
  | text t => exact .text t (.inr rfl)
  | array items ih =>
    rw [valueExpr, valueExprs_eq]
    exact .array (.inr rfl) (List.forall_mem_map.mpr ih)

theorem fits_objects {v : Value} (kind : v.ranked.kind = .object) {depth : Nat}
    (le : depth ≤ v.ranked.depth) :
    Fits (TypeRef.object.arrays depth) (valueExpr true (TypeRef.object.arrays depth) v) := by
  induction depth generalizing v with
  | zero => exact fits_object v
  | succ depth ih =>
    cases v with
    | array items =>
      refine fits_valueExpr_array.mpr fun item inside => ?_
      by_cases null : item = .null
      · rw [null]
        exact fits_objects_null depth
      · by_cases flat : depth = 0
        · subst flat
          exact fits_object item
        · rw [Value.ranked, Ranked.deepen] at kind le
          dsimp only at kind le
          have uniform : Uniform items (Ranked.common (itemTypes items)) := by
            refine uniform_common fun same => flat ?_
            rw [same] at le
            change depth + 1 ≤ min TypeUse.maxDepth 1 at le
            omega
          have same := uniform.all item inside null
          refine ih (by rw [same, kind]) ?_
          rw [same]
          omega
    | _ => cases le

theorem not_fits_of_lt {v : Value} (other : v.ranked.kind ≠ .object) {depth : Nat}
    (lt : depth < v.ranked.depth) : ¬ Fits ((primitiveType v.ranked.kind).arrays depth)
      (valueExpr true ((primitiveType v.ranked.kind).arrays depth) v) := by
  induction depth generalizing v with
  | zero =>
    cases v with
    | array items =>
      have basic := primitiveType_ne_object other
      rw [valueExpr, fits_array_iff, TypeRef.arrays]
      rintro ⟨own | own, -⟩
      · generalize (Value.array items).ranked.kind = kind at own
        cases kind <;> cases own
      · exact basic own
    | _ => cases lt
  | succ depth ih =>
    cases v with
    | array items =>
      have uniform := uniform_of_kind other
      obtain ⟨item, inside, notNull⟩ := uniform.filled
      have same := uniform.all item inside notNull
      have kind : (Value.array items).ranked.kind = item.ranked.kind := by
        rw [same, Value.ranked, Ranked.deepen]
      have deeper : depth < item.ranked.depth := by
        rw [Value.ranked, Ranked.deepen] at lt
        dsimp only at lt
        rw [same]
        omega
      rw [kind] at other ⊢
      exact fun fits => ih other deeper (fits_valueExpr_array.mp fits item inside)
    | _ => cases lt

theorem gapless_iff {items : List Value} {r : Ranked} (uniform : Uniform items r) :
    (Value.array items).gapless = true ↔
      (Value.null ∈ items → ¬ (r = ⟨.boolean, 0⟩ ∨ r = ⟨.number, 0⟩)) ∧
        ∀ item ∈ items, item ≠ .null → item.gapless = true := by
  have nulls : items.any Value.isNull = true ↔ Value.null ∈ items := by
    simp [List.any_eq_true, isNull_iff]
  have bare : items.any Value.isBare = true ↔ r = ⟨.boolean, 0⟩ ∨ r = ⟨.number, 0⟩ := by
    rw [List.any_eq_true]
    constructor
    · rintro ⟨item, inside, isBare⟩
      have notNull : item ≠ .null := by
        rintro rfl
        cases isBare
      rw [← uniform.all item inside notNull]
      exact isBare_iff.mp isBare
    · intro own
      obtain ⟨item, inside, notNull⟩ := uniform.filled
      refine ⟨item, inside, isBare_iff.mpr ?_⟩
      rwa [uniform.all item inside notNull]
  have some : (∀ item ∈ items, item.gapless = true) ↔
      ∀ item ∈ items, item ≠ .null → item.gapless = true := by
    refine forall₂_congr fun item _ => ⟨fun holds _ => holds, fun holds => ?_⟩
    by_cases null : item = .null
    · rw [null]
      rfl
    · exact holds null
  rw [Value.gapless, Bool.and_eq_true, allGapless_iff, some, Bool.not_eq_true', ← Bool.not_eq_true,
    Bool.and_eq_true, nulls, bare, not_and]

theorem fits_ranked_iff_of_kind {v : Value} (other : v.ranked.kind ≠ .object) :
    Fits v.ranked.type (valueExpr true v.ranked.type v) ↔
      v.gapless = true ∧ v.nesting ≤ TypeUse.maxDepth := by
  induction v using Value.induction_items with
  | null => exact absurd rfl other
  | bool b => exact iff_of_true (.bool b (.inl rfl)) ⟨rfl, Nat.zero_le _⟩
  | number x => exact iff_of_true (.number x (.inl rfl)) ⟨rfl, Nat.zero_le _⟩
  | text t => exact iff_of_true (.text t (.inl rfl)) ⟨rfl, Nat.zero_le _⟩
  | array items ih =>
    have uniform := uniform_of_kind other
    have isRanked : (Value.array items).ranked = (Ranked.common (itemTypes items)).deepen := rfl
    generalize Ranked.common (itemTypes items) = r at uniform isRanked
    have kind (item : Value) (inside : item ∈ items) (notNull : item ≠ .null) :
        item.ranked.kind ≠ .object := by
      rw [uniform.all item inside notNull]
      rwa [isRanked] at other
    have depth := uniform.depth_eq fun item inside notNull => depth_eq (kind item inside notNull)
    rw [isRanked, Value.nesting]
    by_cases full : r.depth = TypeUse.maxDepth
    · -- No rank is left for the array itself, so that its items are written for one rank less.
      refine iff_of_false (fun fits => ?_) (by omega)
      obtain ⟨item, inside, notNull⟩ := uniform.filled
      have same := uniform.all item inside notNull
      have isType : r.deepen.type = .array ((primitiveType item.ranked.kind).arrays 254) := by
        rw [Ranked.type, Ranked.deepen, full, same]
        rfl
      rw [isType] at fits
      refine not_fits_of_lt (kind item inside notNull) ?_ (fits_valueExpr_array.mp fits item inside)
      rw [same, full]
      decide
    · have isType : r.deepen.type = .array r.type := by
        rw [Ranked.type, Ranked.deepen, min_eq_right (by omega)]
        rfl
      rw [isType, fits_valueExpr_array, gapless_iff uniform, and_iff_left (by omega)]
      have each (item : Value) (inside : item ∈ items) (notNull : item ≠ .null) :
          Fits r.type (valueExpr true r.type item) ↔ item.gapless = true := by
        have own := ih item inside (kind item inside notNull)
        have small := nestings_le_iff.mp le_rfl item inside
        rwa [uniform.all item inside notNull, and_iff_left (by omega)] at own
      have null : Fits r.type (valueExpr true r.type .null) ↔
          ¬ (r = ⟨.boolean, 0⟩ ∨ r = ⟨.number, 0⟩) := fits_null_iff.trans type_ne_iff
      constructor
      · intro holds
        exact ⟨fun inside => null.mp (holds _ inside),
          fun item inside notNull => (each item inside notNull).mp (holds item inside)⟩
      · rintro ⟨bare, gapless⟩ item inside
        by_cases isNull : item = .null
        · subst isNull
          exact null.mpr (bare inside)
        · exact (each item inside isNull).mpr (gapless item inside isNull)

/-- A value fits its own type if and only if that is of objects, or no array has a null beside a
boolean or a number and arrays are not nested too deeply. -/
theorem fits_ranked_iff (v : Value) : Fits v.ranked.type (valueExpr true v.ranked.type v) ↔
    v.ranked.kind = .object ∨ v.gapless = true ∧ v.nesting ≤ TypeUse.maxDepth := by
  by_cases kind : v.ranked.kind = .object
  · have fits := fits_objects kind le_rfl
    rw [Ranked.type, kind]
    exact iff_of_true fits (.inl rfl)
  · rw [fits_ranked_iff_of_kind kind, or_iff_right kind]

end Code

end TypeLoom
