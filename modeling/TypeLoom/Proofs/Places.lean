/-! Scans by places. A place in a text is told by the number of characters before it. Here nothing
is made to fit: a number that would fall below zero, a character or a piece of text outside of the
text, and steps that do not suffice are faults. A scan without faults stays inside of its text. -/
namespace TypeLoom.Places

inductive Fault where
  | underflow
  | outside
  | exhausted

@[simp] theorem ok_bind {ε α β : Type} (x : α) (next : α → Except ε β) :
    Except.ok x >>= next = next x := rfl

def minus (a b : Nat) : Except Fault Nat :=
  if b ≤ a then .ok (a - b) else .error .underflow

theorem minus_add (a b : Nat) : minus (a + b) b = .ok a := by
  rw [minus, if_pos (Nat.le_add_left b a), Nat.add_sub_cancel]

/-- The character behind a place. -/
def charAt (text : List Char) (place : Nat) : Except Fault Char :=
  (text[place]?).elim (.error .outside) .ok

theorem charAt_append (front : List Char) (c : Char) (back : List Char) :
    charAt (front ++ c :: back) front.length = .ok c := by
  simp [charAt]

def slice (text : List Char) (start stop : Nat) : Except Fault (List Char) :=
  if start ≤ stop ∧ stop ≤ text.length then .ok ((text.take stop).drop start)
  else .error .outside

theorem slice_eq {text : List Char} {start stop : Nat} (ordered : start ≤ stop)
    (inside : stop ≤ text.length) :
    slice text start stop = .ok ((text.drop start).take (stop - start)) := by
  rw [slice, if_pos ⟨ordered, inside⟩, List.drop_take]

theorem slice_append (front middle back : List Char) :
    slice (front ++ (middle ++ back)) front.length (front.length + middle.length) = .ok middle := by
  have inside : front.length ≤ front.length + middle.length ∧
      front.length + middle.length ≤ (front ++ (middle ++ back)).length := by
    simp only [List.length_append]
    omega
  rw [slice, if_pos inside, ← List.append_assoc, ← List.length_append, List.take_left,
    List.drop_left]

theorem slice_to_end (front back : List Char) :
    slice (front ++ back) front.length (front ++ back).length = .ok back := by
  have whole := slice_append front back []
  rwa [List.append_nil, ← List.length_append] at whole

theorem slice_from_start (front back : List Char) :
    slice (front ++ back) 0 front.length = .ok front := by
  have whole := slice_append [] front back
  rwa [List.nil_append, List.length_nil, Nat.zero_add] at whole

end TypeLoom.Places
