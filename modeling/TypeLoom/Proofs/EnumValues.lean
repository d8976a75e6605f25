import Mathlib.Data.List.Basic
import TypeLoom.Proofs.Decision
import TypeLoom.Proofs.DeclaredNames

/-! Numbers of enum members. Of the numbers that the facts give, only those are stored that a member
would not have anyway. Where every member has the number that is written at it, or else one more
than the member before, all the numbers are there again. -/
namespace TypeLoom

namespace Double

/-- The number is finite and equal to the integer `n`. -/
def IsInteger (x : Double) (n : Int) : Prop :=
  x.isFinite = true ∧ (if x.negative then -(x.ratio.1 : Int) else x.ratio.1) = n * x.ratio.2

theorem integer?_eq_some_iff {x : Double} {n : Int} : x.integer? = some n ↔ x.IsInteger n := by
  have positive : (x.ratio.2 : Int) ≠ 0 := Int.natCast_ne_zero.mpr (Nat.two_pow_pos _).ne'
  rw [integer?, IsInteger]
  dsimp only
  constructor
  · intro found
    split at found
    · rename_i both
      rw [Bool.and_eq_true, beq_iff_eq] at both
      have whole : (x.ratio.1 : Int) = (x.ratio.1 / x.ratio.2 : Nat) * x.ratio.2 := by
        exact_mod_cast (Nat.div_mul_cancel (Nat.dvd_of_mod_eq_zero both.2)).symm
      refine ⟨both.1, ?_⟩
      rw [← Option.some.inj found]
      cases x.negative with
      | true => rw [if_pos rfl, if_pos rfl, Int.neg_mul, ← whole]
      | false => exact whole
    · cases found
  · rintro ⟨finite, equal⟩
    have divides : (x.ratio.2 : Int) ∣ x.ratio.1 := by
      split_ifs at equal
      · exact Int.dvd_neg.mp (equal ▸ Int.dvd_mul_left n _)
      · exact equal ▸ Int.dvd_mul_left n _
    have rest : x.ratio.1 % x.ratio.2 = 0 :=
      Nat.mod_eq_zero_of_dvd (Int.natCast_dvd_natCast.mp divides)
    rw [if_pos (by simp [finite, rest]), Int.natCast_ediv, ← Int.neg_ediv_of_dvd divides, ← ite_div,
      equal, Int.mul_ediv_cancel _ positive]

end Double

namespace Code

/-- The numbers of enum members in order: a member has the number that is written at it, or else the
next one. -/
def numbersFrom (next : Int) : List (Option Int) → List Int
  | [] => []
  | written :: rest => written.getD next :: numbersFrom (written.getD next + 1) rest

/-- The number of the member at `i` if none is written there: `first`, or one more than the number
of the member before. -/
def impliedAt (first : Int) (numbers : List Int) (i : Nat) : Int :=
  (numbers.take i).getLast?.elim first (· + 1)

theorem impliedAt_succ (first number : Int) (rest : List Int) (i : Nat) :
    impliedAt first (number :: rest) (i + 1) = impliedAt (number + 1) rest i := by
  rw [impliedAt, impliedAt, List.take_succ_cons, List.getLast?_cons]
  cases (rest.take i).getLast? <;> rfl

theorem lowerEnum_members (settings : Settings) (name : String) (node : Graph.Node)
    (members : List Graph.Member) :
    (lowerEnum settings name node members).members.map (fun m => (m.value, m.wire)) =
      members.map fun m => (m.value, m.wire) := by
  have length : members.length ≤ (uniqueNames [] (members.zipIdx.map fun entry =>
      enumMemberName settings.enumMemberCasing entry.1.name entry.2)).length := by
    rw [uniqueNames_length, List.length_map, List.length_zipIdx]
  rw [lowerEnum]
  dsimp only
  conv_rhs => rw [← List.map_snd_zip length, List.map_map]
  rw [List.map_map]
  rfl

end Code

namespace Ingest
open TypeLoom.Graph TypeLoom.Fact TypeLoom.Code

/-- The value gives a member the number `n`: it is an integer of 32 bits with sign. -/
def Gives (value : Option EnumValue) (n : Int) : Prop :=
  ∃ x, value = some (.number x) ∧ x.IsInteger n ∧ -0x80000000 ≤ n ∧ n < 0x80000000

theorem gives_number_iff {x : Double} {n : Int} :
    Gives (some (.number x)) n ↔ enumInteger? x = some n := by
  rw [enumInteger?, Option.filter_eq_some_iff, Double.integer?_eq_some_iff, Bool.and_eq_true,
    decide_eq_true_iff, decide_eq_true_iff]
  constructor
  · rintro ⟨y, same, is⟩
    cases same
    exact is
  · exact fun is => ⟨x, rfl, is⟩

def textOf (value : Option EnumValue) : Option String :=
  value.bind fun
    | .text text => some text
    | .number _ => none

/-- A member for a value. Its number is the one that the value gives, or else the `implied` one,
which it would have anyway; it is stored only if it is another one. -/
structure Represents (value : Option EnumValue) (implied : Int) (member : Member) (number : Int) :
    Prop where
  given : ∀ n, Gives value n → number = n
  otherwise : (∀ n, ¬ Gives value n) → number = implied
  wire : member.wire = textOf value
  stored : member.value = if number = implied then none else some number

theorem numberMember_represents (expected : Int) (name : String) (value : Option EnumValue) :
    ∃ number, (numberMember expected name value).member.value.getD expected = number ∧
      (numberMember expected name value).next = number + 1 ∧
      Represents value expected (numberMember expected name value).member number := by
  have plain (value : Option EnumValue) (member : Member) (nothing : ∀ n, ¬ Gives value n)
      (wire : member.wire = textOf value) (without : member.value = none) :
      Represents value expected member expected :=
    ⟨fun n gives => absurd gives (nothing n), fun _ => rfl, wire, by rw [without, if_pos rfl]⟩
  cases value with
  | none => exact ⟨expected, rfl, rfl, plain _ _ (by simp [Gives]) rfl rfl⟩
  | some value =>
    cases value with
    | text wire => exact ⟨expected, rfl, rfl, plain _ _ (by simp [Gives]) rfl rfl⟩
    | number x =>
      rw [numberMember]
      cases given : enumInteger? x with
      | none =>
        refine ⟨expected, rfl, rfl, plain _ _ (fun n gives => ?_) rfl rfl⟩
        rw [gives_number_iff, given] at gives
        cases gives
      | some n =>
        have gives : Gives (some (.number x)) n := gives_number_iff.mpr given
        refine ⟨n, ?_, rfl, fun other also => ?_, fun nothing => absurd gives (nothing n), rfl, rfl⟩
        · dsimp only
          split_ifs with same
          · exact same.symm
          · rfl
        · rw [gives_number_iff, given] at also
          exact Option.some.inj also

theorem numberMembers_names (seen : List String) (expected : Int)
    (pairs : List (String × Option EnumValue)) :
    (numberMembers seen expected pairs).map (fun numbered => numbered.member.name) =
      ((pairs.map Prod.fst).filter fun name => !seen.contains name).eraseDups := by
  induction pairs generalizing seen expected with
  | nil => rfl
  | cons pair rest ih =>
    obtain ⟨name, value⟩ := pair
    rw [numberMembers, List.map_cons, List.filter_cons]
    cases again : seen.contains name with
    | true =>
      rw [if_pos rfl]
      exact ih seen expected
    | false =>
      rw [if_neg Bool.false_ne_true, Bool.not_false, if_pos rfl, List.map_cons, numberMember_name,
        ih, List.eraseDups_cons, List.filter_filter]
      congr 2
      refine List.filter_congr fun other _ => ?_
      rw [List.contains_cons, Bool.not_or]

theorem numberMembers_represents (seen : List String) (expected : Int)
    (pairs : List (String × Option EnumValue)) {out : List Member}
    (made : (numberMembers seen expected pairs).map Numbered.member = out) {numbers : List Int}
    (assigned : numbersFrom expected (out.map Member.value) = numbers) {i : Nat} {member : Member}
    (here : out[i]? = some member) :
    member.name ∉ seen ∧ ∃ value number,
      pairs.find? (·.1 == member.name) = some (member.name, value) ∧
      numbers[i]? = some number ∧
      Represents value (impliedAt expected numbers i) member number := by
  induction pairs generalizing seen expected out numbers i with
  | nil =>
    subst made
    cases here
  | cons pair rest ih =>
    obtain ⟨name, value⟩ := pair
    have later {value' : Option EnumValue} (other : member.name ≠ name)
        (first : rest.find? (·.1 == member.name) = some (member.name, value')) :
        ((name, value) :: rest).find? (·.1 == member.name) = some (member.name, value') := by
      rw [List.find?_cons_of_neg (by simpa using other.symm), first]
    rw [numberMembers] at made
    split_ifs at made with again
    · obtain ⟨new, value', number, first, isNumber, represents⟩ :=
        ih seen expected made assigned here
      refine ⟨new, value', number, later ?_ first, isNumber, represents⟩
      rintro rfl
      exact new (List.contains_iff_mem.mp again)
    · obtain ⟨number, own, next, represents⟩ := numberMember_represents expected name value
      rw [List.map_cons] at made
      subst made
      rw [List.map_cons, numbersFrom, own] at assigned
      subst assigned
      cases i with
      | zero =>
        cases here
        rw [numberMember_name]
        refine ⟨fun member => again (List.contains_iff_mem.mpr member), value, number, ?_, rfl,
          represents⟩
        exact List.find?_cons_of_pos (by simp)
      | succ i =>
        rw [next] at here ⊢
        obtain ⟨new, value', other, first, isNumber, represents'⟩ :=
          ih (name :: seen) (number + 1) rfl rfl here
        rw [List.mem_cons, not_or] at new
        rw [impliedAt_succ]
        exact ⟨new.2, value', other, later new.1 first, isNumber, represents'⟩

theorem enumMembers_run (subject : String) (pairs : List (String × Option EnumValue)) (s : State) :
    ∃ s', (enumMembers subject pairs).run.run s =
      (.ok ((numberMembers [] 0 pairs).map Numbered.member), s') := by
  rw [enumMembers]
  generalize (numberMembers [] 0 pairs).map Numbered.member = out
  induction numberMembers [] 0 pairs generalizing s with
  | nil => exact ⟨s, rfl⟩
  | cons entry rest ih =>
    rw [List.forIn_cons]
    cases problem : entry.problem with
    | none => exact ih s
    | some text => exact ih _

/-- The members of an enum have the names that there are, in order of their first occurrence.
Counted from what is stored, the first from zero, each has the number that its value gives it, or
else one more than the member before, and a text is kept beside it; a number is stored only if it is
not that one. The members are written with just this. -/
theorem enumMembers_numbers (subject : String) (pairs : List (String × Option EnumValue))
    (s : State) :
    ∃ out s', (enumMembers subject pairs).run.run s = (.ok out, s') ∧
      out.map Member.name = (pairs.map Prod.fst).eraseDups ∧
      (∀ i member, out[i]? = some member → ∃ value number,
        pairs.find? (·.1 == member.name) = some (member.name, value) ∧
        (numbersFrom 0 (out.map Member.value))[i]? = some number ∧
        Represents value (impliedAt 0 (numbersFrom 0 (out.map Member.value)) i) member number) ∧
      ∀ settings name node,
        (lowerEnum settings name node out).members.map (fun m => (m.value, m.wire)) =
          out.map fun m => (m.value, m.wire) := by
  obtain ⟨s', run⟩ := enumMembers_run subject pairs s
  refine ⟨_, s', run, ?_, fun i member here => ?_, fun settings name node => lowerEnum_members ..⟩
  · rw [List.map_map]
    refine (numberMembers_names [] 0 pairs).trans ?_
    simp
  · exact (numberMembers_represents [] 0 pairs rfl rfl here).2

end Ingest

end TypeLoom
