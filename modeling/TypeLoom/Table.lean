/-! Finite maps as association lists with distinct keys, the latest key in front. -/
namespace TypeLoom

structure Table (κ ν : Type) where
  entries : List (κ × ν) := []

namespace Table
variable {κ ν : Type} [DecidableEq κ]

def get? (t : Table κ ν) (key : κ) : Option ν :=
  (t.entries.find? fun entry => entry.1 = key).map Prod.snd

def contains (t : Table κ ν) (key : κ) : Bool :=
  t.entries.any fun entry => entry.1 = key

def erase (t : Table κ ν) (key : κ) : Table κ ν :=
  ⟨t.entries.filter fun entry => entry.1 ≠ key⟩

def insert (t : Table κ ν) (key : κ) (value : ν) : Table κ ν :=
  ⟨(key, value) :: (t.erase key).entries⟩

def size (t : Table κ ν) : Nat :=
  t.entries.length

theorem contains_eq_isSome (t : Table κ ν) (key : κ) : t.contains key = (t.get? key).isSome := by
  rw [contains, get?, Option.isSome_map, List.isSome_find?]

theorem get?_erase_self (t : Table κ ν) (key : κ) : (t.erase key).get? key = none := by
  simp [get?, erase]

theorem get?_erase_of_ne (t : Table κ ν) {key other : κ} (h : other ≠ key) :
    (t.erase key).get? other = t.get? other := by
  simp only [get?, erase, List.find?_filter]
  congr 2
  funext entry
  by_cases same : entry.1 = other <;> simp [same, h]

@[simp] theorem get?_insert_self (t : Table κ ν) (key : κ) (value : ν) :
    (t.insert key value).get? key = some value := by
  simp [get?, insert]

theorem get?_insert_of_ne (t : Table κ ν) {key other : κ} (value : ν) (h : other ≠ key) :
    (t.insert key value).get? other = t.get? other := by
  rw [← get?_erase_of_ne t h]
  simp [get?, insert, h.symm]

end Table

end TypeLoom
