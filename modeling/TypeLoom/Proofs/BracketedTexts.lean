import TypeLoom.Name.Parse
import TypeLoom.Proofs.SourceLines
import TypeLoom.Proofs.StringLiterals
import TypeLoom.Proofs.VisibleNames

/-! The scans that take an identifier apart: at separators outside of angle brackets, at rank groups
from the end, and at the bracket that closes an argument list. Each is described on texts whose
angle brackets are in pairs. -/
namespace TypeLoom.Name
open Text (consHead isBlank)

/-- Angle brackets are in pairs, and outside of them stand only characters of one kind. -/
inductive Bracketed : (Char → Prop) → List Char → Prop
  | nil {p : Char → Prop} : Bracketed p []
  | cons {p : Char → Prop} {c : Char} {rest : List Char} (opens : c ≠ '<') (closes : c ≠ '>')
      (own : p c) (after : Bracketed p rest) : Bracketed p (c :: rest)
  | nest {p : Char → Prop} {inner rest : List Char} (inside : Bracketed (fun _ => True) inner)
      (after : Bracketed p rest) : Bracketed p ('<' :: (inner ++ '>' :: rest))

namespace Bracketed
variable {p q : Char → Prop} {text rest : List Char}

theorem append (front : Bracketed p text) (back : Bracketed p rest) :
    Bracketed p (text ++ rest) := by
  induction front with
  | nil => exact back
  | cons opens closes own _ ih => exact .cons opens closes own (ih back)
  | nest inside _ _ ih =>
    rw [List.cons_append, List.append_assoc, List.cons_append]
    exact .nest inside (ih back)

theorem weaken (bracketed : Bracketed p text) (wider : ∀ c, p c → q c) : Bracketed q text := by
  induction bracketed with
  | nil => exact .nil
  | cons opens closes own _ ih => exact .cons opens closes (wider _ own) (ih wider)
  | nest inside _ _ ih => exact .nest inside (ih wider)

theorem balanced (bracketed : Bracketed p text) : Bracketed (fun _ => True) text :=
  bracketed.weaken fun _ _ => trivial

theorem of_plain (opens : '<' ∉ text) (closes : '>' ∉ text) (own : ∀ c ∈ text, p c) :
    Bracketed p text := by
  induction text with
  | nil => exact .nil
  | cons c text ih =>
    rw [List.mem_cons, not_or] at opens closes
    rw [List.forall_mem_cons] at own
    exact .cons (Ne.symm opens.1) (Ne.symm closes.1) own.1 (ih opens.2 closes.2 own.2)

theorem intercalate {separator : List Char} (between : Bracketed p separator)
    {texts : List (List Char)} (each : ∀ text ∈ texts, Bracketed p text) :
    Bracketed p (separator.intercalate texts) := by
  induction texts with
  | nil => exact .nil
  | cons text texts ih =>
    rw [List.forall_mem_cons] at each
    cases texts with
    | nil => simpa using each.1
    | cons second texts =>
      rw [List.intercalate_cons_cons]
      exact (each.1.append between).append (ih each.2)

end Bracketed

theorem exists_append_intercalate {p : Char → Prop} {separator : List Char}
    (between : Bracketed p separator) {texts : List (List Char)}
    (each : ∀ text ∈ texts, Bracketed p text) {text : List Char} (member : text ∈ texts) :
    ∃ front back, separator.intercalate texts = front ++ text ++ back ∧ Bracketed p front := by
  induction texts with
  | nil => cases member
  | cons first texts ih =>
    rw [List.forall_mem_cons] at each
    cases texts with
    | nil =>
      rw [List.mem_singleton.mp member]
      exact ⟨[], [], by simp, .nil⟩
    | cons second texts =>
      rw [List.intercalate_cons_cons]
      rcases List.mem_cons.mp member with rfl | later
      · exact ⟨[], _, by rw [List.nil_append, List.append_assoc], .nil⟩
      · obtain ⟨front, back, parts, bracketed⟩ := ih each.2 later
        rw [parts]
        exact ⟨first ++ separator ++ front, back, by simp only [List.append_assoc],
          (each.1.append between).append bracketed⟩

theorem splitOutside_ne_nil (separator : Char) (depth : Nat) (text : List Char) :
    splitOutside separator depth text ≠ [] := by
  cases text with
  | nil => simp [splitOutside]
  | cons c text =>
    rw [splitOutside]
    split_ifs
    · exact Code.consHead_ne_nil c _
    · exact Code.consHead_ne_nil c _
    · simp
    · exact Code.consHead_ne_nil c _

theorem splitOutside_char {separator c : Char} {depth : Nat} (opens : c ≠ '<') (closes : c ≠ '>')
    (inside : c = separator → depth ≠ 0) (rest : List Char) :
    splitOutside separator depth (c :: rest) = consHead c (splitOutside separator depth rest) := by
  rw [splitOutside, if_neg opens, if_neg closes, if_neg]
  exact fun both => inside both.1 both.2

theorem splitOutside_open (separator : Char) (depth : Nat) (rest : List Char) :
    splitOutside separator depth ('<' :: rest) =
      consHead '<' (splitOutside separator (depth + 1) rest) := by
  rw [splitOutside, if_pos rfl]

theorem splitOutside_close (separator : Char) (depth : Nat) (rest : List Char) :
    splitOutside separator (depth + 1) ('>' :: rest) =
      consHead '>' (splitOutside separator depth rest) := by
  rw [splitOutside, if_neg (by decide), if_pos rfl, Nat.add_sub_cancel]

theorem splitOutside_append {p : Char → Prop} {text : List Char} (bracketed : Bracketed p text)
    {separator : Char} {depth : Nat} (whole : ∀ c, p c → c = separator → depth ≠ 0)
    (rest : List Char) : splitOutside separator depth (text ++ rest) =
      text.foldr consHead (splitOutside separator depth rest) := by
  induction bracketed generalizing depth rest with
  | nil => rfl
  | cons opens closes own _ ih =>
    rw [List.cons_append, splitOutside_char opens closes (whole _ own), ih whole, List.foldr_cons]
  | nest _ _ ihInside ih =>
    rw [List.cons_append, List.append_assoc, List.cons_append, splitOutside_open,
      ihInside fun _ _ _ => Nat.succ_ne_zero depth, splitOutside_close, ih whole, List.foldr_cons,
      List.foldr_append, List.foldr_cons]

section separator
variable {separator : Char} (opens : separator ≠ '<') (closes : separator ≠ '>')
include opens closes

theorem splitOutside_separator (rest : List Char) :
    splitOutside separator 0 (separator :: rest) = [] :: splitOutside separator 0 rest := by
  rw [splitOutside, if_neg opens, if_neg closes, if_pos ⟨rfl, rfl⟩]

theorem splitOutside_cut {p : Char → Prop} {text : List Char} (bracketed : Bracketed p text)
    (rest : List Char) : splitOutside separator 0 (text ++ separator :: rest) =
      splitOutside separator 0 text ++ splitOutside separator 0 rest := by
  induction bracketed with
  | nil => exact splitOutside_separator opens closes rest
  | @cons p c text opensC closesC _ _ ih =>
    rw [List.cons_append]
    by_cases same : c = separator
    · rw [same, splitOutside_separator opens closes, splitOutside_separator opens closes, ih,
        List.cons_append]
    · rw [splitOutside_char opensC closesC (absurd · same),
        splitOutside_char opensC closesC (absurd · same), ih,
        Code.consHead_append c (splitOutside_ne_nil separator 0 text)]
  | @nest p inner text inside _ _ ih =>
    have first (tail : List Char) : splitOutside separator 0 ('<' :: (inner ++ '>' :: tail)) =
        ('<' :: (inner ++ ['>'])).foldr consHead (splitOutside separator 0 tail) := by
      have group := @splitOutside_append (fun _ => False) _ (.nest inside .nil) separator 0
        (fun _ none _ => none.elim) tail
      simpa using group
    obtain ⟨piece, pieces, cut⟩ := List.exists_cons_of_ne_nil (splitOutside_ne_nil separator 0 text)
    rw [List.cons_append, List.append_assoc, List.cons_append, first, first, ih, cut,
      List.cons_append, Code.foldr_consHead, Code.foldr_consHead]
    rfl

theorem splitOutside_intercalate {texts : List (List Char)} (some : texts ≠ [])
    (each : ∀ text ∈ texts, Bracketed (· ≠ separator) text) :
    splitOutside separator 0 ([separator].intercalate texts) = texts := by
  have whole {text : List Char} (bracketed : Bracketed (· ≠ separator) text) :
      splitOutside separator 0 text = [text] := by
    have alone := @splitOutside_append _ text bracketed separator 0
      (fun _ other same => absurd same other) []
    rwa [List.append_nil, splitOutside, Code.foldr_consHead, List.append_nil] at alone
  induction texts with
  | nil => exact absurd rfl some
  | cons text texts ih =>
    rw [List.forall_mem_cons] at each
    cases texts with
    | nil => simpa using whole each.1
    | cons second texts =>
      rw [List.intercalate_cons_cons, List.append_assoc, List.singleton_append,
        splitOutside_cut opens closes each.1, whole each.1, ih (by simp) each.2,
        List.singleton_append]

end separator

/-- The texts between the brackets of a word that are read as its arguments. -/
def argumentTexts (text : List Char) : List (List Char) :=
  ((splitOutside ',' 0 text).map Text.trim).filter (· ≠ [])

theorem argumentTexts_cut {p : Char → Prop} {text : List Char} (bracketed : Bracketed p text)
    (rest : List Char) :
    argumentTexts (text ++ ',' :: rest) = argumentTexts text ++ argumentTexts rest := by
  rw [argumentTexts, splitOutside_cut (by decide) (by decide) bracketed, List.map_append,
    List.filter_append]
  rfl

theorem argumentTexts_blank (rest : List Char) :
    argumentTexts (' ' :: rest) = argumentTexts rest := by
  obtain ⟨piece, pieces, cut⟩ := List.exists_cons_of_ne_nil (splitOutside_ne_nil ',' 0 rest)
  have trimmed : Text.trim (' ' :: piece) = Text.trim piece := by
    rw [Text.trim, Text.trimStart, List.dropWhile_cons_of_pos (by decide)]
    rfl
  rw [argumentTexts, argumentTexts, splitOutside_char (by decide) (by decide) (by decide), cut,
    consHead, List.map_cons, trimmed, List.map_cons]

theorem argumentTexts_intercalate {p : Char → Prop} {texts : List (List Char)} (some : texts ≠ [])
    (each : ∀ text ∈ texts, Bracketed p text) :
    argumentTexts ([',', ' '].intercalate texts) = texts.flatMap argumentTexts := by
  induction texts with
  | nil => exact absurd rfl some
  | cons text texts ih =>
    rw [List.forall_mem_cons] at each
    cases texts with
    | nil => simp
    | cons second texts =>
      rw [List.intercalate_cons_cons, List.append_assoc, List.cons_append, List.singleton_append,
        argumentTexts_cut each.1, argumentTexts_blank, ih (by simp) each.2]
      rfl

theorem exists_piece_of_mem {separator c : Char} (other : c ≠ separator) {text : List Char}
    (member : c ∈ text) (depth : Nat) : ∃ piece ∈ splitOutside separator depth text, c ∈ piece := by
  have head (d : Char) (pieces : List (List Char)) : ∃ piece ∈ consHead d pieces, d ∈ piece := by
    cases pieces <;> simp [consHead]
  have tail (d : Char) {pieces : List (List Char)} (found : ∃ piece ∈ pieces, c ∈ piece) :
      ∃ piece ∈ consHead d pieces, c ∈ piece := by
    cases pieces with
    | nil => simp at found
    | cons first pieces =>
      simp only [consHead, List.exists_mem_cons_iff] at found ⊢
      exact found.imp_left (List.mem_cons_of_mem d)
  fun_induction splitOutside separator depth text with
  | case1 => cases member
  | case2 depth rest ih | case3 depth rest _ ih =>
    rcases List.mem_cons.mp member with rfl | later
    · exact head _ _
    · exact tail _ (ih later)
  | case4 depth d rest _ _ cuts ih =>
    obtain ⟨piece, inside, found⟩ := ih ((List.mem_cons.mp member).resolve_left
      fun same => other (same.trans cuts.1))
    exact ⟨piece, List.mem_cons_of_mem _ inside, found⟩
  | case5 depth d rest _ _ _ ih =>
    rcases List.mem_cons.mp member with rfl | later
    · exact head _ _
    · exact tail _ (ih later)

theorem argumentTexts_ne_nil {text : List Char} {c : Char} (member : c ∈ text) (comma : c ≠ ',')
    (visible : isBlank c = false) : argumentTexts text ≠ [] := by
  obtain ⟨piece, inside, found⟩ := exists_piece_of_mem comma member 0
  apply List.ne_nil_of_mem (a := Text.trim piece)
  rw [argumentTexts, List.mem_filter]
  refine ⟨List.mem_map_of_mem inside, decide_eq_true ?_⟩
  rw [ne_eq, Text.trim_eq_nil_iff, Text.isBlankText, List.all_eq_true]
  intro blank
  rw [blank c found] at visible
  cases visible

theorem two_argumentTexts {p : Char → Prop} {before after : List Char}
    (bracketed : Bracketed p before) {c d : Char} (first : c ∈ before) (commaC : c ≠ ',')
    (visibleC : isBlank c = false) (second : d ∈ after) (commaD : d ≠ ',')
    (visibleD : isBlank d = false) :
    2 ≤ (argumentTexts (before ++ ',' :: after)).length := by
  have front := List.length_pos_iff.mpr (argumentTexts_ne_nil first commaC visibleC)
  have back := List.length_pos_iff.mpr (argumentTexts_ne_nil second commaD visibleD)
  rw [argumentTexts_cut bracketed, List.length_append]
  omega

/-- Text that begins and ends with a character that shows. -/
structure Framed (text : List Char) : Prop where
  first : ∃ c, text.head? = some c ∧ isBlank c = false
  last : ∃ c, text.getLast? = some c ∧ isBlank c = false

theorem Framed.ne_nil {text : List Char} (framed : Framed text) : text ≠ [] := by
  rintro rfl
  obtain ⟨c, head, -⟩ := framed.first
  cases head

theorem Framed.append {front back : List Char} (framedFront : Framed front)
    (framedBack : Framed back) (middle : List Char) : Framed (front ++ middle ++ back) where
  first := by
    obtain ⟨c, head, visible⟩ := framedFront.first
    exact ⟨c, by simp [head], visible⟩
  last := by
    obtain ⟨c, last, visible⟩ := framedBack.last
    exact ⟨c, by simp [last], visible⟩

theorem Framed.trim {text : List Char} (framed : Framed text) : Text.trim text = text := by
  obtain ⟨c, head, visible⟩ := framed.first
  obtain ⟨d, last, visibleLast⟩ := framed.last
  obtain ⟨rest, rfl⟩ := List.head?_eq_some_iff.mp head
  obtain ⟨front, parts⟩ := List.getLast?_eq_some_iff.mp last
  have start : Text.trimStart (c :: rest) = c :: rest :=
    List.dropWhile_cons_of_neg (by simp [visible])
  rw [Text.trim, start, parts, Literal.trimEnd_concat visibleLast]

theorem argumentTexts_of_framed {text : List Char} (framed : Framed text)
    (bracketed : Bracketed (· ≠ ',') text) : argumentTexts text = [text] := by
  have whole := splitOutside_intercalate (by decide) (by decide) (List.cons_ne_nil text [])
    (List.forall_mem_singleton.mpr bracketed)
  rw [List.intercalate_singleton] at whole
  rw [argumentTexts, whole, List.map_singleton, framed.trim,
    List.filter_eq_self.mpr (by simpa using framed.ne_nil)]

/-- A rank group around a text: `[]`, `[,]`, `[,,]`. -/
def rankGroup (inner : List Char) : List Char :=
  '[' :: (inner ++ [']'])

/-- One or more rank groups that hold characters of one kind. -/
def RankGroups (p : Char → Prop) (text : List Char) : Prop :=
  ∃ groups : List (List Char), groups ≠ [] ∧ (∀ inner ∈ groups, ∀ c ∈ inner, p c) ∧
    text = groups.flatMap rankGroup

theorem rankSize_pending {back : List Char} (spacing : ∀ c ∈ back, c = ',' ∨ isBlank c = true)
    (done size : Nat) (rest : List Char) : rankSize done (some size) (back ++ '[' :: rest) =
      rankSize (done + (size + back.length) + 1) none rest := by
  induction back generalizing size with
  | nil => rw [List.nil_append, rankSize, if_pos rfl, List.length_nil, Nat.add_zero size]
  | cons c back ih =>
    rw [List.forall_mem_cons] at spacing
    have opens : c ≠ '[' := by
      rintro rfl
      revert spacing
      simp [show isBlank '[' = false by decide]
    rw [List.cons_append, rankSize, if_neg opens, if_pos (by simpa using spacing.1), ih spacing.2,
      List.length_cons, Nat.add_right_comm size 1, Nat.add_assoc size]

theorem rankSize_group {inner : List Char} (spacing : ∀ c ∈ inner, c = ',' ∨ isBlank c = true)
    (done : Nat) (rest : List Char) : rankSize done none ((rankGroup inner).reverse ++ rest) =
      rankSize (done + (rankGroup inner).length) none rest := by
  have back : (rankGroup inner).reverse ++ rest = ']' :: (inner.reverse ++ '[' :: rest) := by
    simp [rankGroup]
  have size : (rankGroup inner).length = 1 + inner.reverse.length + 1 := by
    simp only [rankGroup, List.length_cons, List.length_append, List.length_nil,
      List.length_reverse]
    omega
  rw [back, rankSize, if_pos rfl, rankSize_pending (by simpa using spacing), size,
    Nat.add_assoc done]

theorem rankSize_groups {groups : List (List Char)}
    (spacing : ∀ inner ∈ groups, ∀ c ∈ inner, c = ',' ∨ isBlank c = true) (done : Nat)
    (rest : List Char) : rankSize done none ((groups.flatMap rankGroup).reverse ++ rest) =
      rankSize (done + (groups.flatMap rankGroup).length) none rest := by
  induction groups generalizing rest with
  | nil => rfl
  | cons inner groups ih =>
    rw [List.forall_mem_cons] at spacing
    rw [List.flatMap_cons, List.reverse_append, List.append_assoc, ih spacing.2,
      rankSize_group spacing.1, List.length_append]
    congr 1
    omega

theorem splitRank_append {head : List Char} {c : Char} (last : head.getLast? = some c)
    (other : c ≠ ']') {p : Char → Prop} (spacing : ∀ d, p d → d = ',' ∨ isBlank d = true)
    {rank : List Char} (groups : RankGroups p rank) :
    splitRank (head ++ rank) = (head, some rank) := by
  obtain ⟨front, rfl⟩ := List.getLast?_eq_some_iff.mp last
  obtain ⟨inners, nonempty, each, rfl⟩ := groups
  have spaced : ∀ inner ∈ inners, ∀ d ∈ inner, d = ',' ∨ isBlank d = true :=
    fun inner member d inside => spacing d (each inner member d inside)
  have size : rankSize 0 none (front ++ [c] ++ inners.flatMap rankGroup).reverse =
      (inners.flatMap rankGroup).length := by
    rw [List.reverse_append, rankSize_groups spaced, Nat.zero_add, List.reverse_append,
      List.reverse_singleton, List.singleton_append, rankSize, if_neg other]
  have positive : (inners.flatMap rankGroup).length ≠ 0 := by
    obtain ⟨inner, inners, rfl⟩ := List.exists_cons_of_ne_nil nonempty
    simp [rankGroup]
  rw [splitRank, size, List.length_append, Nat.add_sub_cancel,
    if_neg (not_or.mpr ⟨positive, by simp⟩), List.take_left, List.drop_left]

theorem splitRank_of_last {head : List Char} {c : Char} (last : head.getLast? = some c)
    (other : c ≠ ']') : splitRank head = (head, none) := by
  obtain ⟨front, rfl⟩ := List.getLast?_eq_some_iff.mp last
  have size : rankSize 0 none (front ++ [c]).reverse = 0 := by
    rw [List.reverse_append, List.reverse_singleton, List.singleton_append, rankSize, if_neg other]
  rw [splitRank, size]
  exact if_pos (.inl rfl)

theorem RankGroups.weaken {p q : Char → Prop} {text : List Char} (groups : RankGroups p text)
    (wider : ∀ c ∈ text, p c → q c) : RankGroups q text := by
  obtain ⟨inners, nonempty, each, rfl⟩ := groups
  refine ⟨inners, nonempty, ?_, rfl⟩
  intro inner listed c inside
  refine wider c ?_ (each inner listed c inside)
  exact List.mem_flatMap.mpr ⟨inner, listed, by simp [rankGroup, inside]⟩

theorem RankGroups.getLast? {p : Char → Prop} {text : List Char} (groups : RankGroups p text) :
    text.getLast? = some ']' := by
  obtain ⟨inners, nonempty, -, rfl⟩ := groups
  obtain ⟨front, last, rfl⟩ := (List.eq_nil_or_concat' inners).resolve_left nonempty
  exact List.getLast?_eq_some_iff.mpr
    ⟨front.flatMap rankGroup ++ '[' :: last, by simp [rankGroup]⟩

theorem RankGroups.mem {p : Char → Prop} {text : List Char} (groups : RankGroups p text) {c : Char}
    (member : c ∈ text) : c = '[' ∨ p c ∨ c = ']' := by
  obtain ⟨inners, -, each, rfl⟩ := groups
  obtain ⟨inner, listed, inside⟩ := List.mem_flatMap.mp member
  rw [rankGroup, List.mem_cons, List.mem_append, List.mem_singleton] at inside
  exact inside.imp_right (Or.imp_left (each inner listed c))

theorem rankSize_pending_cases (done size : Nat) (back : List Char) :
    rankSize done (some size) back = done ∨
      ∃ inner rest : List Char, (∀ c ∈ inner, c = ',' ∨ isBlank c = true) ∧
        back = inner.reverse ++ '[' :: rest ∧
        rankSize done (some size) back = rankSize (done + (size + inner.length) + 1) none rest := by
  induction back generalizing size with
  | nil => exact .inl rfl
  | cons c back ih =>
    rw [rankSize]
    split_ifs with opens spacing
    · exact .inr ⟨[], back, by simp, by simp [opens], rfl⟩
    · refine (ih (size + 1)).imp_right ?_
      rintro ⟨inner, rest, each, rfl, read⟩
      refine ⟨inner ++ [c], rest, ?_, by simp, ?_⟩
      · rw [List.forall_mem_append, List.forall_mem_singleton]
        exact ⟨each, by simpa using spacing⟩
      · rw [read, List.length_append, List.length_singleton, Nat.add_right_comm size 1,
          Nat.add_assoc size]
    · exact .inl rfl

theorem rankSize_sound (done : Nat) (back : List Char) :
    ∃ (groups : List (List Char)) (rest : List Char),
      (∀ inner ∈ groups, ∀ c ∈ inner, c = ',' ∨ isBlank c = true) ∧
      back = (groups.flatMap rankGroup).reverse ++ rest ∧
      rankSize done none back = done + (groups.flatMap rankGroup).length := by
  induction count : back.length using Nat.strongRecOn generalizing done back with
  | ind size ih =>
    have uncounted : ∃ (groups : List (List Char)) (rest : List Char),
        (∀ inner ∈ groups, ∀ c ∈ inner, c = ',' ∨ isBlank c = true) ∧
        back = (groups.flatMap rankGroup).reverse ++ rest ∧
        done = done + (groups.flatMap rankGroup).length := ⟨[], back, by simp, rfl, rfl⟩
    cases back with
    | nil => exact uncounted
    | cons c back =>
      rw [rankSize]
      split_ifs with closes
      · obtain same | ⟨inner, rest, spacing, rfl, read⟩ := rankSize_pending_cases done 1 back
        · rw [same]
          exact uncounted
        · -- The induction is on the length, because a whole group is taken off at once.
          have shorter : rest.length < size := by
            simp only [List.length_cons, List.length_append] at count
            omega
          obtain ⟨groups, front, each, rfl, total⟩ := ih _ shorter (done + (1 + inner.length) + 1)
            rest rfl
          refine ⟨groups ++ [inner], front, ?_, by simp [rankGroup, closes], ?_⟩
          · rw [List.forall_mem_append, List.forall_mem_singleton]
            exact ⟨each, spacing⟩
          · rw [read, total, List.flatMap_append, List.length_append, List.flatMap_singleton,
              rankGroup, List.length_cons, List.length_append, List.length_singleton]
            omega
      · exact uncounted

theorem splitRank_parts (word : List Char) :
    word = (splitRank word).1 ++ (splitRank word).2.getD [] ∧
      ∀ rank ∈ (splitRank word).2, RankGroups (fun c => c = ',' ∨ isBlank c = true) rank := by
  obtain ⟨groups, rest, each, parts, total⟩ := rankSize_sound 0 word.reverse
  rw [Nat.zero_add] at total
  have whole : word = rest.reverse ++ groups.flatMap rankGroup := by
    rw [← List.reverse_reverse word, parts, List.reverse_append, List.reverse_reverse]
  have cut : word.length - (groups.flatMap rankGroup).length = rest.reverse.length := by
    rw [whole, List.length_append, Nat.add_sub_cancel]
  rw [splitRank, total, cut]
  split_ifs with none
  · simp
  · refine ⟨(List.take_append_drop _ word).symm, ?_⟩
    rintro rank ⟨⟩
    rw [not_or] at none
    refine ⟨groups, ?_, each, ?_⟩
    · rintro rfl
      exact none.1 rfl
    · rw [whole, List.drop_left]

section bracket
variable {depth : Nat} {rest inner after : List Char}
  (closed : closeBracket depth rest = some (inner, after))
include closed

theorem closeBracket_char {c : Char} (opens : c ≠ '<') (closes : c ≠ '>') :
    closeBracket depth (c :: rest) = some (c :: inner, after) := by
  rw [closeBracket.eq_def]
  dsimp only
  rw [if_neg closes, if_neg opens, closed]
  rfl

theorem closeBracket_close :
    closeBracket (depth + 1) ('>' :: rest) = some ('>' :: inner, after) := by
  rw [closeBracket.eq_def]
  dsimp only
  rw [if_pos rfl, closed]
  rfl

end bracket

theorem closeBracket_open {depth : Nat} {rest inner after : List Char}
    (closed : closeBracket (depth + 1) rest = some (inner, after)) :
    closeBracket depth ('<' :: rest) = some ('<' :: inner, after) := by
  rw [closeBracket.eq_def]
  dsimp only
  rw [if_neg (by decide), if_pos rfl, closed]
  rfl

theorem closeBracket_append {p : Char → Prop} {text : List Char} (bracketed : Bracketed p text)
    {depth : Nat} {rest inner after : List Char}
    (closed : closeBracket depth rest = some (inner, after)) :
    closeBracket depth (text ++ rest) = some (text ++ inner, after) := by
  induction bracketed generalizing depth rest inner with
  | nil => exact closed
  | cons opens closes _ _ ih => exact closeBracket_char (ih closed) opens closes
  | nest _ _ ihInside ih =>
    have whole := closeBracket_open (ihInside (closeBracket_close (ih closed)))
    simpa using whole

theorem splitArguments_of_plain {head : List Char} (plain : '<' ∉ head) :
    splitArguments head = none := by
  have none : head.dropWhile (· ≠ '<') = [] := by
    rw [List.dropWhile_eq_nil_iff]
    intro c member
    exact decide_eq_true (ne_of_mem_of_not_mem member plain)
  rw [splitArguments, none]

theorem splitArguments_append {base : List Char} (plain : '<' ∉ base) {p : Char → Prop}
    {inner : List Char} (bracketed : Bracketed p inner) :
    splitArguments (base ++ '<' :: (inner ++ ['>'])) = some (base, inner, []) := by
  have before : ∀ c ∈ base, decide (c ≠ '<') = true := fun c member =>
    decide_eq_true (ne_of_mem_of_not_mem member plain)
  have closed : closeBracket 0 (inner ++ ['>']) = some (inner, []) := by
    have last := @closeBracket_append _ _ bracketed 0 ['>'] [] [] rfl
    rwa [List.append_nil] at last
  rw [splitArguments, List.dropWhile_append_of_pos before, List.takeWhile_append_of_pos before,
    List.dropWhile_cons_of_neg (by decide), List.takeWhile_cons_of_neg (by decide)]
  dsimp only
  rw [closed, List.append_nil]
  rfl

end TypeLoom.Name
