import TypeLoom.Proofs.Registration

/-! Names that have to be changed. Each name that is tried comes after all names tried before, so
the search ends at a name that no live node has, and it ends in as many steps as registration
allows. A changed name is never that of a primitive type or of the constants. -/
namespace TypeLoom.Graph

/-- How long a name is without the number at its end. -/
def stemLength (name : String) : Nat := (splitNumber name.toList).1.length

/-- The number at the end of a name, zero if there is none. -/
def endNumber (name : String) : Nat := Nat.ofDigitChars 10 (splitNumber name.toList).2 0

/-- The second name has a longer stem, or a stem of the same length and a higher number. -/
def Precedes (a b : String) : Prop :=
  stemLength a < stemLength b ∨ (stemLength a = stemLength b ∧ endNumber a < endNumber b)

theorem Precedes.trans {a b c : String} (first : Precedes a b) (second : Precedes b c) :
    Precedes a c := by
  unfold Precedes at *
  omega

theorem Precedes.ne {a b : String} (before : Precedes a b) : a ≠ b := by
  rintro rfl
  unfold Precedes at before
  omega

theorem splitNumber_append (name : List Char) :
    (splitNumber name).1 ++ (splitNumber name).2 = name := by
  rw [splitNumber, ← List.reverse_append, List.takeWhile_append_dropWhile, List.reverse_reverse]

theorem splitNumber_stem_append (name digits : List Char) (all : ∀ c ∈ digits, c.isDigit = true) :
    splitNumber ((splitNumber name).1 ++ digits) = ((splitNumber name).1, digits) := by
  have stem : (name.reverse.dropWhile Char.isDigit).takeWhile Char.isDigit = [] := by
    cases rest : name.reverse.dropWhile Char.isDigit with
    | nil => rfl
    | cons c cs =>
      have last := List.head_dropWhile_not Char.isDigit (by rw [rest]; exact List.cons_ne_nil c cs)
      simp only [rest, List.head_cons] at last
      simp [last]
  have all' : ∀ c ∈ digits.reverse, c.isDigit = true :=
    fun c member => all c (List.mem_reverse.mp member)
  have same := List.takeWhile_append_dropWhile (p := Char.isDigit)
    (l := name.reverse.dropWhile Char.isDigit)
  rw [stem, List.nil_append] at same
  simp only [splitNumber, List.reverse_append, List.reverse_reverse,
    List.dropWhile_append_of_pos all', List.takeWhile_append_of_pos all', stem, same,
    List.append_nil]

theorem splitNumber_append_digit (name : List Char) {c : Char} (digit : c.isDigit = true) :
    splitNumber (name ++ [c]) = ((splitNumber name).1, (splitNumber name).2 ++ [c]) := by
  simp [splitNumber, digit]

theorem precedes_nextName (name : String) : Precedes name (nextName name) := by
  refine .inr ?_
  rw [nextName]
  dsimp only
  split
  · have digits : ∀ c ∈ Nat.toDigits 10
        ((splitNumber name.toList).2.foldl (fun acc c => acc * 10 + (c.toNat - '0'.toNat)) 0 + 1),
        c.isDigit = true :=
      fun c member => Nat.isDigit_of_mem_toDigits (by decide) (by decide) member
    simp only [stemLength, endNumber, Nat.toString_eq_ofList_toDigits, String.toList_append,
      String.toList_ofList, splitNumber_stem_append _ _ digits, true_and]
    rw [Nat.ofDigitChars_toDigits (by decide) (by decide), Nat.ofDigitChars]
    simp only [Nat.mul_comm 10]
    exact Nat.lt_succ_self _
  · have split : splitNumber (name ++ "1").toList =
        ((splitNumber name.toList).1, (splitNumber name.toList).2 ++ ['1']) := by
      rw [String.toList_append]
      exact splitNumber_append_digit name.toList (by decide)
    simp only [stemLength, endNumber, split, Nat.ofDigitChars_append, true_and]
    change _ < 10 * _ + 1
    omega

theorem precedes_renamed (node : Node) : Precedes node.name (renamed node) := by
  rw [renamed]
  split
  · split_ifs with own
    · refine .inl ?_
      have whole : stemLength (node.name ++ "Base") = node.name.toList.length + 4 := by
        simp [stemLength, splitNumber, String.toList_append]
      have short : stemLength node.name ≤ node.name.toList.length := by
        have both := congrArg List.length (splitNumber_append node.name.toList)
        rw [List.length_append] at both
        rw [stemLength]
        omega
      omega
    · exact precedes_nextName node.name
  · exact precedes_nextName node.name

theorem numbered_getLast? (base : String) (number : Nat) :
    ∃ c, (base ++ toString number).toList.getLast? = some c ∧ c.isDigit = true := by
  have nonempty : Nat.toDigits 10 number ≠ [] := Nat.toDigits_ne_nil
  refine ⟨(Nat.toDigits 10 number).getLast nonempty, ?_,
    Nat.isDigit_of_mem_toDigits (by decide) (by decide) (List.getLast_mem nonempty)⟩
  simp only [String.toList_append, Nat.toString_eq_ofList_toDigits, String.toList_ofList,
    List.getLast?_append, List.getLast?_eq_some_getLast nonempty, Option.some_or]

theorem nextName_getLast? (name : String) :
    ∃ c, (nextName name).toList.getLast? = some c ∧ c.isDigit = true := by
  rw [nextName]
  dsimp only
  split
  · exact numbered_getLast? _ _
  · exact ⟨'1', by simp, by decide⟩

theorem renamed_getLast? (node : Node) :
    ∃ c, (renamed node).toList.getLast? = some c ∧ (c.isDigit || c == 'e') = true := by
  have counted : ∃ c, (nextName node.name).toList.getLast? = some c ∧
      (c.isDigit || c == 'e') = true := by
    obtain ⟨c, last, digit⟩ := nextName_getLast? node.name
    exact ⟨c, last, by rw [digit, Bool.true_or]⟩
  rw [renamed]
  split
  · split_ifs
    · exact ⟨'e', by simp, by decide⟩
    · exact counted
  · exact counted

theorem renamed_ne_label (node : Node) (kind : Primitive) : renamed node ≠ kind.label := by
  intro same
  obtain ⟨c, last, ending⟩ := renamed_getLast? node
  rw [same] at last
  cases kind <;> cases last <;> cases ending

theorem renamed_ne_constantsKey (node : Node) : renamed node ≠ constantsKey := by
  intro same
  obtain ⟨c, last, ending⟩ := renamed_getLast? node
  rw [same] at last
  cases last
  cases ending

/-- What becomes of a node that is appended: it keeps its name, or it gets another one and remembers
its own, which some live node has. -/
structure Placement (g : Graph) (node placed : Node) : Prop where
  kept : placed = { node with name := placed.name, formerName := placed.formerName }
  free : g.liveByName placed.name = none
  cases : placed = node ∨ (placed.formerName = some node.givenName ∧
    (g.liveByName node.name).isSome = true ∧ ∃ before, placed.name = renamed before)

theorem Placement.shape {g : Graph} {node placed : Node} (placement : g.Placement node placed) :
    placed.shape = node.shape := by
  rw [placement.kept]

theorem liveByName_eq_some_iff {g : Graph} {name : String} {id : NodeId} :
    g.liveByName name = some id ↔ g.names.get? name = some id ∧ g.isLive id = true ∧
      ∃ node, g.nodes[id]? = some node ∧ node.name = name := by
  rw [liveByName]
  cases g.names.get? name with
  | none => simp
  | some holder =>
    cases found : g.nodes[holder]? with
    | none => simp; grind
    | some node => simp; grind

/-- As long as no class union is in the way, registration ends with a free name: `used` are the
taken names that can still come up. -/
theorem settle_places (g : Graph) {steps : Nat} {node : Node} {used : List String}
    (room : used.length < steps)
    (all : ∀ name, name = node.name ∨ Precedes node.name name →
      (g.liveByName name).isSome = true → name ∈ used)
    (other : ∀ (id : NodeId) (taken : Node), g.nodes[id]? = some taken →
      sameUnion node.shape taken.shape = false) :
    ∃ placed more, g.Placement node placed ∧
      settle steps g node = ({ g with findings := g.findings ++ more } : Graph).push placed := by
  induction steps generalizing g node used with
  | zero => cases room
  | succ steps ih =>
    rw [settle]
    cases found : g.liveByName node.name with
    | none => exact ⟨node, [], ⟨rfl, found, .inl rfl⟩, by rw [List.append_nil]⟩
    | some holder =>
      obtain ⟨-, -, taken, there, -⟩ := liveByName_eq_some_iff.mp found
      have isTaken : (g.liveByName node.name).isSome = true := by rw [found, Option.isSome_some]
      have member : node.name ∈ used := all node.name (.inl rfl) isTaken
      dsimp only
      rw [there]
      dsimp only
      rw [other holder taken there, if_neg Bool.false_ne_true]
      let next : Node := { node with name := renamed node, formerName := some node.givenName }
      let finding : Finding := ⟨.renamed, node.name,
        "name already taken by " ++ taken.key ++ ", renamed to " ++ renamed node⟩
      let g' : Graph := { g with findings := g.findings ++ [finding] }
      have shorter : (used.erase node.name).length < steps := by
        rw [List.length_erase_of_mem member]
        have := List.length_pos_of_mem member
        omega
      -- The name just tried does not come up again.
      have rest : ∀ name, name = next.name ∨ Precedes next.name name →
          (g'.liveByName name).isSome = true → name ∈ used.erase node.name := by
        intro name later isSome
        have after : Precedes node.name name := by
          rcases later with rfl | later
          · exact precedes_renamed node
          · exact (precedes_renamed node).trans later
        exact (List.mem_erase_of_ne after.ne.symm).mpr (all name (.inr after) isSome)
      obtain ⟨placed, more, placement, done⟩ := ih g' shorter rest other
      rw [List.append_assoc] at done
      refine ⟨placed, finding :: more, ⟨placement.kept, placement.free, .inr ?_⟩, done⟩
      rcases placement.cases with rfl | ⟨former, -, before⟩
      · exact ⟨rfl, isTaken, node, rfl⟩
      · exact ⟨former, isTaken, before⟩

end TypeLoom.Graph
