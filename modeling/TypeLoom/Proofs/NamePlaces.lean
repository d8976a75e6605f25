import TypeLoom.Proofs.BracketedTexts
import TypeLoom.Proofs.Places

/-! Reading an identifier by places. The scans here go over the text with counters and cut it at the
places that they find; every subtraction and every cut is checked. Main result: with more steps than
the text has characters there is no fault, however the brackets stand, and the words are those of
`parse`. -/
namespace TypeLoom.Name
open Text (consHead isBlank)
open Places (Fault minus charAt slice)

/-- Pieces of a text, of which the current one began at `start`. The scan stands at `place`, before
`rest`. A bracket that closes nothing leaves the depth at zero. -/
def splitAtPlaces (separator : Char) (text : List Char) :
    (depth start place : Nat) → (rest : List Char) → Except Fault (List (List Char))
  | _, start, _, [] => do
    let piece ← slice text start text.length
    .ok [piece]
  | depth, start, place, c :: rest =>
    if c = '<' then splitAtPlaces separator text (depth + 1) start (place + 1) rest
    else if c = '>' then splitAtPlaces separator text (depth - 1) start (place + 1) rest
    else if c = separator ∧ depth = 0 then do
      let piece ← slice text start place
      let pieces ← splitAtPlaces separator text depth (place + 1) (place + 1) rest
      .ok (piece :: pieces)
    else splitAtPlaces separator text depth start (place + 1) rest

theorem splitAtPlaces_eq (separator : Char) (front piece rest : List Char) (depth : Nat) :
    splitAtPlaces separator (front ++ (piece ++ rest)) depth front.length
        (front.length + piece.length) rest =
      .ok (piece.foldr consHead (splitOutside separator depth rest)) := by
  induction rest generalizing depth front piece with
  | nil =>
    rw [splitAtPlaces, List.append_nil, Places.slice_to_end, splitOutside, Code.foldr_consHead,
      List.append_nil]
    rfl
  | cons c rest ih =>
    -- The character at the place goes to the piece, unless it is a separator.
    have longer (depth : Nat) : splitAtPlaces separator (front ++ (piece ++ c :: rest)) depth
        front.length (front.length + piece.length + 1) rest =
          .ok (piece.foldr consHead (consHead c (splitOutside separator depth rest))) := by
      have later := ih front (piece ++ [c]) depth
      rwa [List.append_assoc, List.singleton_append, List.length_append, List.length_singleton,
        ← Nat.add_assoc, List.foldr_append, List.foldr_cons, List.foldr_nil] at later
    rw [splitAtPlaces, splitOutside]
    split_ifs with opens closes cuts
    · rw [longer, opens]
    · rw [longer, closes]
    · have later := ih (front ++ piece ++ [c]) [] depth
      simp only [List.append_assoc, List.singleton_append, List.nil_append, List.length_append,
        List.length_singleton, List.length_nil, Nat.add_zero, List.foldr_nil] at later
      rw [Places.slice_append, Code.foldr_consHead, List.append_nil, Nat.add_assoc, later]
      rfl
    · exact longer depth

theorem splitAtPlaces_whole (separator : Char) (text : List Char) :
    splitAtPlaces separator text 0 0 0 text = .ok (splitOutside separator 0 text) :=
  splitAtPlaces_eq separator [] [] text 0

/-- The last place behind which the character stands. -/
def lastPlace (c : Char) : List Char → Option Nat
  | [] => none
  | d :: rest => ((lastPlace c rest).map (· + 1)).or (if d = c then some 0 else none)

theorem lastPlace_cases (c : Char) (text : List Char) :
    (lastPlace c text = none ∧ c ∉ text) ∨ ∃ front back, text = front ++ c :: back ∧ c ∉ back ∧
      lastPlace c text = some front.length := by
  induction text with
  | nil => exact .inl ⟨rfl, List.not_mem_nil⟩
  | cons d rest ih =>
    rw [lastPlace]
    rcases ih with ⟨none, absent⟩ | ⟨front, back, rfl, absent, found⟩
    · rw [none]
      split_ifs with same
      · exact .inr ⟨[], rest, by rw [same, List.nil_append], absent, rfl⟩
      · exact .inl ⟨rfl, by rw [List.mem_cons, not_or]; exact ⟨Ne.symm same, absent⟩⟩
    · rw [found]
      exact .inr ⟨d :: front, back, rfl, absent, rfl⟩

theorem lastPlace_concat {c d : Char} (other : d ≠ c) (text : List Char) :
    lastPlace c (text ++ [d]) = lastPlace c text := by
  induction text with
  | nil => simp [lastPlace, other]
  | cons e text ih => rw [List.cons_append, lastPlace, ih, lastPlace]

/-- Go back over the rank groups before `cut`. -/
def rankCut (word : List Char) : (steps cut : Nat) → Except Fault Nat
  | 0, _ => .error .exhausted
  | steps + 1, cut =>
    if cut = 0 then .ok cut
    else do
      let last ← minus cut 1
      let c ← charAt word last
      if c = ']' then
        let before ← slice word 0 cut
        (lastPlace '[' before).elim (.ok cut) fun start => do
          let group ← slice word (start + 1) last
          if group.all fun c => c = ',' || isBlank c then rankCut word steps start else .ok cut
      else .ok cut

theorem rankSize_add (more done : Nat) (pending : Option Nat) (back : List Char) :
    rankSize (more + done) pending back = more + rankSize done pending back := by
  fun_induction rankSize done pending back with
  | case1 => rfl
  | case2 done rest ih => rw [rankSize, if_pos rfl, ih]
  | case3 done c rest other => rw [rankSize, if_neg other]
  | case4 done size rest ih =>
    rw [rankSize, if_pos rfl, ← ih]
    congr 1
    omega
  | case5 done size c rest opens spacing ih => rw [rankSize, if_neg opens, if_pos spacing, ih]
  | case6 done size c rest opens spacing => rw [rankSize, if_neg opens, if_neg spacing]

theorem bracket_not_mem_of_spacing {inner : List Char}
    (spacing : ∀ c ∈ inner, c = ',' ∨ isBlank c = true) : '[' ∉ inner := by
  intro member
  rcases spacing '[' member with same | blank
  · exact absurd same (by decide)
  · exact absurd blank (by decide)

/-- Behind the last opening bracket a group is either spaced or no rank group at all. -/
theorem rankSize_of_last (head group : List Char) (inside : '[' ∉ group) :
    rankSize 0 none (head ++ rankGroup group).reverse =
      if group.all fun c => c = ',' || isBlank c then
        (rankGroup group).length + rankSize 0 none head.reverse
      else 0 := by
  split_ifs with all
  · have spacing : ∀ c ∈ group, c = ',' ∨ isBlank c = true := by simpa using all
    rw [List.reverse_append, rankSize_group spacing, Nat.zero_add]
    exact rankSize_add (rankGroup group).length 0 none head.reverse
  · have back : (head ++ rankGroup group).reverse = ']' :: (head ++ '[' :: group).reverse := by
      simp [rankGroup]
    rw [back, rankSize, if_pos rfl]
    rcases rankSize_pending_cases 0 1 (head ++ '[' :: group).reverse with
      none | ⟨inner, rest, spacing, parts, -⟩
    · exact none
    · have same : head ++ '[' :: group = rest.reverse ++ '[' :: inner := by
        simpa using congrArg List.reverse parts
      obtain ⟨-, rfl⟩ := Graph.append_inj_of_last inside (bracket_not_mem_of_spacing spacing) same
      exact absurd (by simpa using spacing) all

theorem rankSize_of_absent {front : List Char} (absent : '[' ∉ front) :
    rankSize 0 none (front ++ [']']).reverse = 0 := by
  rw [List.reverse_append, List.reverse_singleton, List.singleton_append, rankSize, if_pos rfl]
  rcases rankSize_pending_cases 0 1 front.reverse with none | ⟨inner, rest, -, same, -⟩
  · exact none
  · have member : '[' ∈ front := by
      rw [← List.mem_reverse, same]
      simp
    exact absurd member absent

theorem rankCut_eq (text after : List Char) {steps : Nat} (enough : text.length < steps) :
    rankCut (text ++ after) steps text.length =
      .ok (text.length - rankSize 0 none text.reverse) := by
  induction steps generalizing text after with
  | zero => cases enough
  | succ steps ih =>
    obtain rfl | ⟨front, c, rfl⟩ := List.eq_nil_or_concat' text
    · rfl
    · have length : (front ++ [c]).length = front.length + 1 := by simp
      have here : charAt (front ++ [c] ++ after) front.length = .ok c := by
        rw [List.append_assoc]
        exact Places.charAt_append front c after
      have whole := Places.slice_from_start (front ++ [c]) after
      rw [length] at whole enough ⊢
      rw [rankCut, if_neg (Nat.succ_ne_zero _), Places.minus_add, Places.ok_bind, here,
        Places.ok_bind]
      split_ifs with closes
      · rw [whole, Places.ok_bind, lastPlace_concat (by rw [closes]; decide), closes]
        rcases lastPlace_cases '[' front with ⟨none, absent⟩ | ⟨head, group, rfl, inside, found⟩
        · rw [none, Option.elim_none, rankSize_of_absent absent, Nat.sub_zero]
        · have parts : head ++ '[' :: group ++ [']'] = head ++ rankGroup group := by
            simp [rankGroup]
          have split : head ++ rankGroup group ++ after =
              (head ++ ['[']) ++ (group ++ ']' :: after) := by simp [rankGroup]
          have stop : (head ++ '[' :: group).length = (head ++ ['[']).length + group.length := by
            simp only [List.length_append, List.length_cons, List.length_nil]
            omega
          have total : (rankGroup group).length = group.length + 2 := by simp [rankGroup]
          have later := ih head (rankGroup group ++ after)
            (by rw [stop, List.length_append] at enough; omega)
          have start : head.length + 1 = (head ++ ['[']).length := by simp
          rw [found, Option.elim_some, parts, rankSize_of_last head group inside, stop, start,
            split, Places.slice_append, Places.ok_bind, ← split]
          split_ifs
          · rw [List.append_assoc, later, total, ← start]
            congr 1
            omega
          · rfl
      · rw [List.reverse_append, List.reverse_singleton, List.singleton_append, rankSize,
          if_neg closes, Nat.sub_zero]

/-- A word cut where its rank groups begin, unless it has none or nothing else. -/
def rankAtPlaces (word : List Char) : Except Fault (List Char × Option (List Char)) := do
  let cut ← rankCut word (word.length + 1) word.length
  if cut = word.length ∨ cut = 0 then .ok (word, none)
  else
    let head ← slice word 0 cut
    let rank ← slice word cut word.length
    .ok (head, some rank)

theorem rankAtPlaces_eq (word : List Char) : rankAtPlaces word = .ok (splitRank word) := by
  obtain ⟨groups, rest, -, parts, total⟩ := rankSize_sound 0 word.reverse
  have within : rankSize 0 none word.reverse ≤ word.length := by
    have lengths := congrArg List.length parts
    rw [List.length_reverse, List.length_append, List.length_reverse] at lengths
    omega
  have cut := @rankCut_eq word [] (word.length + 1) (Nat.lt_succ_self _)
  rw [List.append_nil] at cut
  rw [rankAtPlaces, cut, Places.ok_bind, splitRank]
  generalize rankSize 0 none word.reverse = size at within
  have same : word.length - size = word.length ∨ word.length - size = 0 ↔
      size = 0 ∨ word.length - size = 0 := by omega
  rw [if_congr same rfl rfl]
  split_ifs
  · rfl
  · have front := Places.slice_from_start (word.take (word.length - size))
      (word.drop (word.length - size))
    have back := Places.slice_to_end (word.take (word.length - size))
      (word.drop (word.length - size))
    rw [List.take_append_drop, List.length_take, Nat.min_eq_left (Nat.sub_le _ _)] at front back
    rw [front, Places.ok_bind, back, Places.ok_bind]

/-- The place of the bracket that closes the first one, by counting those that are open. -/
def closingPlace : (depth place : Nat) → List Char → Except Fault (Option Nat)
  | _, _, [] => .ok none
  | depth, place, c :: rest =>
    if c = '<' then closingPlace (depth + 1) (place + 1) rest
    else if c = '>' then do
      let depth ← minus depth 1
      if depth = 0 then .ok (some place) else closingPlace depth (place + 1) rest
    else closingPlace depth (place + 1) rest

/-- As long as a bracket is open, the count does not fall below zero. -/
theorem closingPlace_eq (depth place : Nat) (rest : List Char) :
    closingPlace (depth + 1) place rest =
      .ok ((closeBracket depth rest).map fun parts => place + parts.1.length) := by
  induction rest generalizing depth place with
  | nil => rfl
  | cons c rest ih =>
    have further (depth : Nat) : closingPlace (depth + 1) (place + 1) rest =
        .ok (((closeBracket depth rest).map fun parts => (c :: parts.1, parts.2)).map
          fun parts => place + parts.1.length) := by
      rw [ih, Option.map_map]
      congr 2
      funext parts
      rw [Function.comp_apply, List.length_cons]
      omega
    rw [closingPlace, closeBracket.eq_def]
    dsimp only
    split_ifs with opens closes closes
    · rw [opens] at closes
      exact absurd closes (by decide)
    · exact further (depth + 1)
    · rw [Places.minus_add, Places.ok_bind]
      cases depth with
      | zero => rfl
      | succ depth =>
        rw [if_neg (Nat.succ_ne_zero depth)]
        exact further depth
    · exact further depth

/-- The text before, inside and after the first brackets of a word. -/
def argumentsAtPlaces (head : List Char) :
    Except Fault (Option (List Char × List Char × List Char)) :=
  (head.findIdx? (· = '<')).elim (.ok none) fun start => do
    let found ← closingPlace 0 start (head.drop start)
    found.elim (.ok none) fun stop => do
      let before ← slice head 0 start
      let inner ← slice head (start + 1) stop
      let after ← slice head (stop + 1) head.length
      .ok (some (before, inner, after))

theorem closeBracket_parts {depth : Nat} {rest inner after : List Char}
    (closed : closeBracket depth rest = some (inner, after)) : rest = inner ++ '>' :: after := by
  fun_induction closeBracket depth rest generalizing inner with
  | case1 => cases closed
  | case2 rest =>
    cases closed
    rfl
  | case3 depth rest ih =>
    obtain ⟨⟨inner', after'⟩, inside, same⟩ := Option.map_eq_some_iff.mp closed
    cases same
    rw [ih inside, List.cons_append]
  | case4 depth c rest _ ih =>
    obtain ⟨⟨inner', after'⟩, inside, same⟩ := Option.map_eq_some_iff.mp closed
    cases same
    rw [ih inside, List.cons_append]

theorem exists_opening (head : List Char) : '<' ∉ head ∨
    ∃ before rest, head = before ++ '<' :: rest ∧ '<' ∉ before := by
  by_cases member : '<' ∈ head
  · obtain ⟨before, rest, parts, absent⟩ := List.eq_append_cons_of_mem member
    exact .inr ⟨before, rest, parts, absent⟩
  · exact .inl member

theorem splitArguments_opening {before : List Char} (plain : '<' ∉ before) (rest : List Char) :
    splitArguments (before ++ '<' :: rest) =
      (closeBracket 0 rest).map fun parts => (before, parts.1, parts.2) := by
  have other : ∀ c ∈ before, decide (c ≠ '<') = true := fun c member =>
    decide_eq_true (ne_of_mem_of_not_mem member plain)
  rw [splitArguments, List.dropWhile_append_of_pos other, List.takeWhile_append_of_pos other,
    List.dropWhile_cons_of_neg (by decide), List.takeWhile_cons_of_neg (by decide),
    List.append_nil]

theorem findIdx?_of_plain {text : List Char} (plain : '<' ∉ text) :
    text.findIdx? (· = '<') = none := by
  rw [List.findIdx?_eq_none_iff]
  intro c member
  exact decide_eq_false (ne_of_mem_of_not_mem member plain)

theorem argumentsAtPlaces_eq (head : List Char) :
    argumentsAtPlaces head = .ok (splitArguments head) := by
  rcases exists_opening head with plain | ⟨before, rest, rfl, plain⟩
  · rw [argumentsAtPlaces, findIdx?_of_plain plain, splitArguments_of_plain plain]
    rfl
  · have first : (before ++ '<' :: rest).findIdx? (· = '<') = some before.length := by
      rw [List.findIdx?_append, findIdx?_of_plain plain, List.findIdx?_cons]
      simp
    rw [argumentsAtPlaces, first, Option.elim_some, List.drop_left, closingPlace, if_pos rfl,
      closingPlace_eq, Places.ok_bind, splitArguments_opening plain]
    cases closed : closeBracket 0 rest with
    | none => rfl
    | some parts =>
      obtain ⟨inner, after⟩ := parts
      obtain rfl := closeBracket_parts closed
      have start : (before ++ ['<']).length = before.length + 1 := by simp
      have stop : (before ++ '<' :: inner ++ ['>']).length =
          before.length + 1 + inner.length + 1 := by
        simp
        omega
      have front := Places.slice_from_start before ('<' :: (inner ++ '>' :: after))
      have middle := Places.slice_append (before ++ ['<']) inner ('>' :: after)
      have back := Places.slice_to_end (before ++ '<' :: inner ++ ['>']) after
      rw [start, List.append_assoc, List.singleton_append] at middle
      rw [stop, List.append_assoc, List.append_assoc, List.cons_append,
        List.singleton_append] at back
      rw [Option.map_some, Option.elim_some, front, Places.ok_bind, middle, Places.ok_bind, back]
      rfl

def wordAtPlaces (parse : List Char → Except Fault (List Word)) (word : List Char) :
    Except Fault Word := do
  let cut ← rankAtPlaces word
  let parts ← argumentsAtPlaces cut.1
  parts.elim (.ok ⟨String.ofList cut.1, cut.2.map String.ofList, []⟩) fun parts => do
    let pieces ← splitAtPlaces ',' parts.2.1 0 0 0 parts.2.1
    let arguments ← ((pieces.map Text.trim).filter (· ≠ [])).mapM parse
    .ok ⟨String.ofList (parts.1 ++ parts.2.2), cut.2.map String.ofList, arguments⟩

/-- Words of a text, by so many levels of arguments at most. -/
def parseAtPlaces : (steps : Nat) → List Char → Except Fault (List Word)
  | 0, _ => .error .exhausted
  | steps + 1, text => do
    let pieces ← splitAtPlaces '_' text 0 0 0 text
    (pieces.filter (· ≠ [])).mapM (wordAtPlaces (parseAtPlaces steps))

theorem mapM_eq_ok {α β : Type} {f : α → Except Fault β} {g : α → β} {items : List α}
    (each : ∀ item ∈ items, f item = .ok (g item)) : items.mapM f = .ok (items.map g) := by
  induction items with
  | nil => rfl
  | cons item items ih =>
    rw [List.forall_mem_cons] at each
    rw [List.mapM_cons, each.1, Places.ok_bind, ih each.2]
    rfl

theorem wordAtPlaces_eq {byPlaces : List Char → Except Fault (List Word)}
    {parse : List Char → List Word} {word : List Char}
    (each : ∀ parts ∈ splitArguments (splitRank word).1, ∀ text ∈ argumentTexts parts.2.1,
      byPlaces text = .ok (parse text)) :
    wordAtPlaces byPlaces word = .ok (parseWord parse word) := by
  rw [wordAtPlaces, rankAtPlaces_eq, Places.ok_bind, argumentsAtPlaces_eq, Places.ok_bind,
    parseWord]
  cases found : splitArguments (splitRank word).1 with
  | none =>
    rw [Option.elim_none]
    dsimp only
    rw [found]
  | some parts =>
    have arguments := mapM_eq_ok (each parts found)
    rw [argumentTexts] at arguments
    rw [Option.elim_some, splitAtPlaces_whole, Places.ok_bind, arguments, Places.ok_bind]
    dsimp only
    rw [found]

theorem flatten_consHead (c : Char) (pieces : List (List Char)) :
    (consHead c pieces).flatten = c :: pieces.flatten := by
  cases pieces <;> rfl

theorem flatten_splitOutside_sublist (separator : Char) (depth : Nat) (text : List Char) :
    (splitOutside separator depth text).flatten.Sublist text := by
  fun_induction splitOutside separator depth text with
  | case1 => exact .refl []
  | case2 depth rest ih | case3 depth rest _ ih =>
    rw [flatten_consHead]
    exact ih.cons_cons _
  | case4 depth c rest _ _ _ ih =>
    rw [List.flatten_cons, List.nil_append]
    exact ih.cons c
  | case5 depth c rest _ _ _ ih =>
    rw [flatten_consHead]
    exact ih.cons_cons c

theorem length_piece_le {separator : Char} {depth : Nat} {text piece : List Char}
    (member : piece ∈ splitOutside separator depth text) : piece.length ≤ text.length :=
  ((List.sublist_flatten_of_mem member).trans
    (flatten_splitOutside_sublist separator depth text)).length_le

theorem length_trim_le (text : List Char) : (Text.trim text).length ≤ text.length := by
  rw [Text.trim, Text.trimEnd, List.length_reverse]
  calc ((Text.trimStart text).reverse.dropWhile isBlank).length
      ≤ (Text.trimStart text).reverse.length := (List.dropWhile_sublist _).length_le
    _ = (Text.trimStart text).length := List.length_reverse
    _ ≤ text.length := (List.dropWhile_sublist _).length_le

theorem splitArguments_parts {head : List Char} {parts : List Char × List Char × List Char}
    (found : parts ∈ splitArguments head) :
    head = parts.1 ++ '<' :: (parts.2.1 ++ '>' :: parts.2.2) := by
  rcases exists_opening head with plain | ⟨before, rest, rfl, plain⟩
  · rw [splitArguments_of_plain plain] at found
    cases found
  · rw [splitArguments_opening plain] at found
    obtain ⟨⟨inner, after⟩, closed, rfl⟩ := Option.map_eq_some_iff.mp found
    rw [closeBracket_parts closed]

theorem length_argument_lt {word : List Char} {parts : List Char × List Char × List Char}
    (found : parts ∈ splitArguments (splitRank word).1) {text : List Char}
    (member : text ∈ argumentTexts parts.2.1) : text.length < word.length := by
  obtain ⟨whole, -⟩ := splitRank_parts word
  have head := congrArg List.length (splitArguments_parts found)
  have lengths := congrArg List.length whole
  obtain ⟨piece, inside, rfl⟩ := List.mem_map.mp (List.mem_filter.mp member).1
  have short := (length_trim_le piece).trans (length_piece_le inside)
  simp only [List.length_append, List.length_cons] at head lengths
  omega

/-- With more steps than characters there is no fault, and the outcome does not depend on the bound
under which words are read. -/
theorem parseAtPlaces_eq {steps size : Nat} {text : List Char} (enough : text.length < steps)
    (within : text.length ≤ size) : parseAtPlaces steps text = .ok (parseWithin size text) := by
  induction steps generalizing size text with
  | zero => cases enough
  | succ steps ih =>
    rw [parseAtPlaces, splitAtPlaces_whole, Places.ok_bind]
    cases size with
    | zero =>
      rw [List.length_eq_zero_iff.mp (Nat.le_zero.mp within)]
      rfl
    | succ size =>
      rw [parseWithin]
      refine mapM_eq_ok fun word member => wordAtPlaces_eq fun parts found argument inside => ?_
      have shorter := length_argument_lt found inside
      have short := length_piece_le (List.mem_filter.mp member).1
      exact ih (by omega) (by omega)

end TypeLoom.Name
