import TypeLoom.Name.Render
import TypeLoom.Proofs.BracketedTexts

/-! Words read back from their spelling with underscores. Three scans take it apart: one at
underscores and one at commas, both outside of angle brackets, and one for the rank groups at the
end. A comma in the rank of an argument stands outside of angle brackets too. Main result: words are
read back exactly if no rank inside of an argument has a comma. -/
namespace TypeLoom.Name
open Text (isBlank)

def isBaseChar (c : Char) : Bool :=
  !isBlank c && !(['_', '<', '>', '[', ']', ','].contains c)

/-- The base is not empty and has no mark in it, the rank is made of groups of commas, and no
argument is empty. -/
inductive Word.WellFormed : Word → Prop
  | mk {base : String} {rank : Option String} {arguments : List (List Word)}
      (named : base.toList ≠ []) (plain : ∀ c ∈ base.toList, isBaseChar c = true)
      (ranked : ∀ text ∈ rank, RankGroups (· = ',') text.toList)
      (filled : ∀ words ∈ arguments, words ≠ [])
      (each : ∀ words ∈ arguments, ∀ word ∈ words, word.WellFormed) :
      WellFormed (.mk base rank arguments)

/-- No rank has a comma, neither that of the word nor one inside of its arguments. -/
inductive Word.CommaFree : Word → Prop
  | mk {base : String} {rank : Option String} {arguments : List (List Word)}
      (own : ∀ text ∈ rank, ',' ∉ text.toList)
      (each : ∀ words ∈ arguments, ∀ word ∈ words, word.CommaFree) :
      CommaFree (.mk base rank arguments)

theorem Word.commaFree_iff {word : Word} : word.CommaFree ↔
    (∀ text ∈ word.rank, ',' ∉ text.toList) ∧
      ∀ words ∈ word.arguments, ∀ inner ∈ words, inner.CommaFree := by
  obtain ⟨base, rank, arguments⟩ := word
  constructor
  · intro free
    cases free with
    | mk own each => exact ⟨own, each⟩
  · rintro ⟨own, each⟩
    exact .mk own each

/-- A word written in lower case with underscores. -/
def spell (word : Word) : List Char :=
  (renderWord .snake false word).toList

def spellAll (words : List Word) : List Char :=
  ['_'].intercalate (words.map spell)

/-- Arguments between angle brackets; without arguments there are no brackets. -/
def spellArguments (arguments : List (List Word)) : List Char :=
  if arguments.isEmpty then []
  else '<' :: ([',', ' '].intercalate (arguments.map spellAll) ++ ['>'])

theorem renderWords_snake (position : Position) (count : Nat) (first : Bool) (words : List Word) :
    renderWords .snake position count first words = words.map (renderWord .snake false) := by
  induction words generalizing first with
  | nil => rw [renderWords, List.map_nil]
  | cons word words ih => simp [renderWords, ih, Casing.raises]

theorem toList_join_snake (position : Position) (words : List Word) :
    (Casing.snake.separator.intercalate
      (renderWords .snake position words.length true words)).toList = spellAll words := by
  rw [renderWords_snake, String.toList_intercalate, List.map_map]
  rfl

theorem toList_render_snake (words : List Word) (position : Position) :
    (render words .snake position).toList = spellAll words :=
  toList_join_snake position words

theorem toList_renderArguments_snake (arguments : List (List Word)) :
    (renderArguments .snake arguments).map String.toList = arguments.map spellAll := by
  induction arguments with
  | nil => rw [renderArguments, List.map_nil, List.map_nil]
  | cons words rest ih =>
    rw [renderArguments, List.map_cons, toList_join_snake, ih, List.map_cons]

theorem spell_mk (base : String) (rank : Option String) (arguments : List (List Word)) :
    spell (.mk base rank arguments) =
      base.toList ++ spellArguments arguments ++ (rank.getD "").toList := by
  cases arguments with
  | nil => simp [spell, renderWord, spellArguments]
  | cons words rest =>
    simp [spell, renderWord, spellArguments, String.toList_intercalate,
      toList_renderArguments_snake]

theorem ne_of_isBaseChar {c mark : Char} (own : isBaseChar c = true)
    (other : isBaseChar mark = false) : c ≠ mark := by
  rintro rfl
  rw [own] at other
  cases other

theorem visible_of_isBaseChar {c : Char} (own : isBaseChar c = true) : isBlank c = false := by
  rw [isBaseChar, Bool.and_eq_true, Bool.not_eq_true'] at own
  exact own.1

theorem mem_rank {rank : Option String} (ranked : ∀ text ∈ rank, RankGroups (· = ',') text.toList)
    {c : Char} (member : c ∈ (rank.getD "").toList) : c = '[' ∨ c = ',' ∨ c = ']' := by
  cases rank with
  | none => cases member
  | some text => exact (ranked text rfl).mem member

theorem bracketed_rank {rank : Option String}
    (ranked : ∀ text ∈ rank, RankGroups (· = ',') text.toList) {p : Char → Prop}
    (own : ∀ c ∈ (rank.getD "").toList, p c) : Bracketed p (rank.getD "").toList :=
  .of_plain (fun member => by simpa using mem_rank ranked member)
    (fun member => by simpa using mem_rank ranked member) own

theorem bracketed_base {base : String} (plain : ∀ c ∈ base.toList, isBaseChar c = true)
    {p : Char → Prop} (own : ∀ c, isBaseChar c = true → p c) : Bracketed p base.toList :=
  .of_plain (fun member => ne_of_isBaseChar (plain _ member) (by decide) rfl)
    (fun member => ne_of_isBaseChar (plain _ member) (by decide) rfl)
    fun c member => own c (plain c member)

theorem bracketed_comma : Bracketed (fun _ => True) [',', ' '] :=
  .of_plain (by decide) (by decide) fun _ _ => trivial

theorem bracketed_spellArguments {arguments : List (List Word)}
    (each : ∀ words ∈ arguments, Bracketed (fun _ => True) (spellAll words)) (p : Char → Prop) :
    Bracketed p (spellArguments arguments) := by
  rw [spellArguments]
  split_ifs
  · exact .nil
  · exact .nest (bracketed_comma.intercalate (List.forall_mem_map.mpr each)) .nil

theorem bracketed_spellAll {words : List Word} {p : Char → Prop} (mark : p '_')
    (each : ∀ word ∈ words, Bracketed p (spell word)) : Bracketed p (spellAll words) := by
  have between : Bracketed p ['_'] := .cons (by decide) (by decide) mark .nil
  exact between.intercalate (List.forall_mem_map.mpr each)

theorem Word.WellFormed.bracketed {word : Word} (wellFormed : word.WellFormed) {p : Char → Prop}
    (base : ∀ c, isBaseChar c = true → p c) (rank : ∀ c ∈ (word.rank.getD "").toList, p c) :
    Bracketed p (spell word) := by
  induction wellFormed generalizing p with
  | mk _ plain ranked _ _ ih =>
    rw [spell_mk]
    refine ((bracketed_base plain base).append (bracketed_spellArguments ?_ p)).append
      (bracketed_rank ranked rank)
    intro words member
    exact bracketed_spellAll trivial fun inner inside =>
      ih words member inner inside (fun _ _ => trivial) fun _ _ => trivial

theorem Word.WellFormed.unmarked {word : Word} (wellFormed : word.WellFormed) :
    Bracketed (· ≠ '_') (spell word) := by
  refine wellFormed.bracketed (fun c own => ne_of_isBaseChar own (by decide)) ?_
  cases wellFormed with
  | mk _ _ ranked _ _ =>
    rintro c member rfl
    simpa using mem_rank ranked member

theorem Word.WellFormed.balanced {word : Word} (wellFormed : word.WellFormed) :
    Bracketed (fun _ => True) (spell word) :=
  wellFormed.unmarked.balanced

theorem balanced_arguments {arguments : List (List Word)}
    (each : ∀ words ∈ arguments, ∀ word ∈ words, word.WellFormed) :
    ∀ text ∈ arguments.map spellAll, Bracketed (fun _ => True) text :=
  List.forall_mem_map.mpr fun words member =>
    bracketed_spellAll trivial fun word inside => (each words member word inside).balanced

theorem getLast?_head {base : String} (named : base.toList ≠ [])
    (plain : ∀ c ∈ base.toList, isBaseChar c = true) (arguments : List (List Word)) :
    ∃ c, (base.toList ++ spellArguments arguments).getLast? = some c ∧ isBlank c = false ∧
      c ≠ ']' := by
  rw [spellArguments]
  split_ifs
  · refine ⟨base.toList.getLast named, ?_, ?_⟩
    · rw [List.append_nil, List.getLast?_eq_some_getLast]
    · have own := plain _ (List.getLast_mem named)
      exact ⟨visible_of_isBaseChar own, ne_of_isBaseChar own (by decide)⟩
  · refine ⟨'>', ?_, by decide, by decide⟩
    rw [← List.cons_append, ← List.append_assoc, List.getLast?_concat]

theorem Word.WellFormed.framed {word : Word} (wellFormed : word.WellFormed) :
    Framed (spell word) := by
  cases wellFormed with
  | @mk base rank arguments named plain ranked _ _ =>
    rw [spell_mk]
    constructor
    · obtain ⟨c, rest, parts⟩ := List.exists_cons_of_ne_nil named
      refine ⟨c, by simp [parts], visible_of_isBaseChar (plain c (by simp [parts]))⟩
    · cases rank with
      | none =>
        obtain ⟨c, last, visible, -⟩ := getLast?_head named plain arguments
        exact ⟨c, by simpa using last, visible⟩
      | some text =>
        have last := (ranked text rfl).getLast?
        exact ⟨']', by simp [last], by decide⟩

theorem framed_spellAll {words : List Word} (filled : words ≠ [])
    (each : ∀ word ∈ words, word.WellFormed) : Framed (spellAll words) := by
  induction words with
  | nil => exact absurd rfl filled
  | cons word words ih =>
    rw [List.forall_mem_cons] at each
    rw [spellAll, List.map_cons]
    cases words with
    | nil => simpa using each.1.framed
    | cons second words =>
      rw [List.map_cons, List.intercalate_cons_cons, ← List.map_cons, ← spellAll]
      exact each.1.framed.append (ih (by simp) each.2) ['_']

theorem splitRank_spell {base : String} (named : base.toList ≠ [])
    (plain : ∀ c ∈ base.toList, isBaseChar c = true) {rank : Option String}
    (ranked : ∀ text ∈ rank, RankGroups (· = ',') text.toList) (arguments : List (List Word)) :
    splitRank (spell (.mk base rank arguments)) =
      (base.toList ++ spellArguments arguments, rank.map String.toList) := by
  obtain ⟨c, last, -, other⟩ := getLast?_head named plain arguments
  rw [spell_mk]
  cases rank with
  | none =>
    rw [Option.getD_none, String.toList_empty, List.append_nil, splitRank_of_last last other]
    rfl
  | some text => exact splitRank_append last other (fun _ comma => .inl comma) (ranked text rfl)

theorem parseWord_spell (parse : List Char → List Word) {base : String} {rank : Option String}
    {arguments : List (List Word)} (wellFormed : (Word.mk base rank arguments).WellFormed) :
    parseWord parse (spell (.mk base rank arguments)) = .mk base rank
      ((arguments.flatMap fun words => argumentTexts (spellAll words)).map parse) := by
  cases wellFormed with
  | mk named plain ranked _ each =>
    have opens : '<' ∉ base.toList := fun member =>
      ne_of_isBaseChar (plain _ member) (by decide) rfl
    have back : (rank.map String.toList).map String.ofList = rank := by
      simp [Option.map_map, Function.comp_def]
    rw [parseWord, splitRank_spell named plain ranked]
    dsimp only
    rw [back]
    cases arguments with
    | nil =>
      rw [spellArguments, if_pos (by rfl), List.append_nil, splitArguments_of_plain opens]
      dsimp only
      rw [String.ofList_toList]
      rfl
    | cons words rest =>
      have balanced := balanced_arguments each
      have texts := argumentTexts_intercalate (by simp) balanced
      rw [argumentTexts] at texts
      rw [spellArguments, if_neg (by simp),
        splitArguments_append opens (bracketed_comma.intercalate balanced)]
      dsimp only
      rw [texts, List.append_nil, String.ofList_toList, List.flatMap_map]

theorem length_of_flatMap {α β : Type} {cut : α → List β} {items : List α}
    (some : ∀ item ∈ items, cut item ≠ []) : items.length ≤ (items.flatMap cut).length ∧
      ((items.flatMap cut).length = items.length → ∀ item ∈ items, (cut item).length = 1) := by
  induction items with
  | nil => simp
  | cons item items ih =>
    rw [List.forall_mem_cons] at some
    obtain ⟨least, each⟩ := ih some.2
    have positive := List.length_pos_iff.mpr some.1
    rw [List.flatMap_cons, List.length_append, List.length_cons, List.forall_mem_cons]
    refine ⟨by omega, fun same => ⟨by omega, each (by omega)⟩⟩

/-- Of items that are cut into pieces, all pieces together are read as the items only if no item is
cut. -/
theorem flatMap_map_eq_iff {α β : Type} {cut : α → List β} {read : β → α} {whole : α → β}
    {items : List α} (some : ∀ item ∈ items, cut item ≠ [])
    (single : ∀ item ∈ items, (cut item).length = 1 → cut item = [whole item]) :
    (items.flatMap cut).map read = items ↔
      ∀ item ∈ items, cut item = [whole item] ∧ read (whole item) = item := by
  have uncut (each : ∀ item ∈ items, cut item = [whole item]) :
      (items.flatMap cut).map read = items.map fun item => read (whole item) := by
    rw [List.flatMap_congr each, ← List.map_eq_flatMap, List.map_map]
    rfl
  constructor
  · intro same
    have one := (length_of_flatMap some).2 (by simpa using congrArg List.length same)
    have each : ∀ item ∈ items, cut item = [whole item] := fun item member =>
      single item member (one item member)
    rw [uncut each] at same
    nth_rewrite 2 [← List.map_id items] at same
    exact fun item member => ⟨each item member, List.map_inj_left.mp same item member⟩
  · intro both
    rw [uncut fun item member => (both item member).1]
    nth_rewrite 2 [← List.map_id items]
    exact List.map_inj_left.mpr fun item member => (both item member).2

theorem spellAll_parts {words : List Word} (each : ∀ word ∈ words, word.WellFormed) {word : Word}
    (member : word ∈ words) :
    ∃ front back, spellAll words = front ++ spell word ++ back ∧
      Bracketed (fun _ => True) front := by
  have between : Bracketed (fun _ => True) ['_'] := .cons (by decide) (by decide) trivial .nil
  exact exists_append_intercalate between
    (List.forall_mem_map.mpr fun word inside => (each word inside).balanced)
    (List.mem_map_of_mem member)

theorem exists_baseChar_spellAll {words : List Word} (filled : words ≠ [])
    (each : ∀ word ∈ words, word.WellFormed) : ∃ c ∈ spellAll words, isBaseChar c = true := by
  obtain ⟨word, member⟩ := List.exists_mem_of_ne_nil words filled
  obtain ⟨front, back, parts, -⟩ := spellAll_parts each member
  cases each word member with
  | @mk base rank arguments named plain _ _ _ =>
    obtain ⟨c, first⟩ := List.exists_mem_of_ne_nil _ named
    exact ⟨c, by simp [parts, spell_mk, first], plain c first⟩

/-- The comma of a rank stands between the base in front of it and the bracket that closes it. -/
theorem two_argumentTexts_spellAll {words : List Word} (each : ∀ word ∈ words, word.WellFormed)
    {word : Word} (member : word ∈ words) {text : String} (ranked : text ∈ word.rank)
    (comma : ',' ∈ text.toList) : 2 ≤ (argumentTexts (spellAll words)).length := by
  obtain ⟨front, back, parts, bracketed⟩ := spellAll_parts each member
  cases each word member with
  | @mk base rank arguments named plain groups _ inner =>
    cases ranked
    have groupsOfText := groups text rfl
    obtain ⟨before, after, cut⟩ := List.append_of_mem comma
    obtain ⟨c, first⟩ := List.exists_mem_of_ne_nil _ named
    have closes : ']' ∈ after := by
      have last := groupsOfText.getLast?
      rw [cut] at last
      obtain rfl | ⟨front, d, rfl⟩ := List.eq_nil_or_concat' after
      · simp at last
      · rw [← List.cons_append, ← List.append_assoc, List.getLast?_concat] at last
        cases last
        simp
    have rankFront : Bracketed (fun _ => True) before := by
      have absent {d : Char} (other : ¬ (d = '[' ∨ d = ',' ∨ d = ']')) : d ∉ before := fun inside =>
        other (groupsOfText.mem (cut ▸ List.mem_append_left _ inside))
      exact .of_plain (absent (by decide)) (absent (by decide)) fun _ _ => trivial
    have whole : spellAll words =
        (front ++ (base.toList ++ spellArguments arguments) ++ before) ++
          ',' :: (after ++ back) := by
      rw [parts, spell_mk, Option.getD_some, cut]
      simp only [List.append_assoc, List.cons_append]
    have head : Bracketed (fun _ => True) (base.toList ++ spellArguments arguments) :=
      (bracketed_base plain fun _ _ => trivial).append
        (bracketed_spellArguments (List.forall_mem_map.mp (balanced_arguments inner)) _)
    have own := plain c first
    rw [whole]
    exact two_argumentTexts ((bracketed.append head).append rankFront) (show c ∈ _ by simp [first])
      (ne_of_isBaseChar own (by decide)) (visible_of_isBaseChar own)
      (List.mem_append_left _ closes) (by decide) (by decide)

theorem argumentTexts_spellAll_iff {words : List Word} (filled : words ≠ [])
    (each : ∀ word ∈ words, word.WellFormed) : argumentTexts (spellAll words) = [spellAll words] ↔
      ∀ word ∈ words, ∀ text ∈ word.rank, ',' ∉ text.toList := by
  constructor
  · intro single word member text ranked comma
    have two := two_argumentTexts_spellAll each member ranked comma
    rw [single, List.length_singleton] at two
    omega
  · intro free
    refine argumentTexts_of_framed (framed_spellAll filled each) ?_
    refine bracketed_spellAll (by decide) fun word member => ?_
    refine (each word member).bracketed (fun c own => ne_of_isBaseChar own (by decide)) ?_
    rintro c inside rfl
    cases rank : word.rank with
    | none => rw [rank] at inside; cases inside
    | some text =>
      rw [rank] at inside
      exact free word member text rank inside

theorem parseWithin_spellAll {words : List Word} (each : ∀ word ∈ words, word.WellFormed)
    (size : Nat) : parseWithin (size + 1) (spellAll words) =
      words.map fun word => parseWord (parseWithin size) (spell word) := by
  cases words with
  | nil => rfl
  | cons word rest =>
    have unmarked : ∀ text ∈ (word :: rest).map spell, Bracketed (· ≠ '_') text :=
      List.forall_mem_map.mpr fun word member => (each word member).unmarked
    have nonempty : ∀ text ∈ (word :: rest).map spell, decide (text ≠ []) = true :=
      List.forall_mem_map.mpr fun word member => decide_eq_true (each word member).framed.ne_nil
    rw [parseWithin, spellAll, splitOutside_intercalate (by decide) (by decide) (by simp) unmarked,
      List.filter_eq_self.mpr nonempty, List.map_map]
    rfl

theorem parseWithin_spellAll_iff {words : List Word} (each : ∀ word ∈ words, word.WellFormed)
    {size : Nat} (enough : (spellAll words).length ≤ size) {q : Word → Prop}
    (back : ∀ word ∈ words, ∀ steps, (spell word).length ≤ steps + 1 →
      (parseWord (parseWithin steps) (spell word) = word ↔ q word)) :
    parseWithin size (spellAll words) = words ↔ ∀ word ∈ words, q word := by
  cases size with
  | zero =>
    obtain rfl : words = [] := by
      by_contra filled
      have empty := List.length_eq_zero_iff.mp (Nat.le_zero.mp enough)
      exact (framed_spellAll filled each).ne_nil empty
    simp [parseWithin]
  | succ steps =>
    have shorter {word : Word} (member : word ∈ words) : (spell word).length ≤ steps + 1 := by
      obtain ⟨front, rest, parts, -⟩ := spellAll_parts each member
      rw [parts, List.length_append, List.length_append] at enough
      omega
    rw [parseWithin_spellAll each]
    nth_rewrite 2 [← List.map_id words]
    rw [List.map_inj_left]
    exact forall₂_congr fun word member => back word member steps (shorter member)

theorem parseWord_spell_iff {word : Word} (wellFormed : word.WellFormed) (steps : Nat)
    (enough : (spell word).length ≤ steps + 1) : parseWord (parseWithin steps) (spell word) = word ↔
      ∀ words ∈ word.arguments, ∀ inner ∈ words, inner.CommaFree := by
  induction wellFormed generalizing steps with
  | @mk base rank arguments named plain ranked filled each ih =>
    have shorter {words : List Word} (member : words ∈ arguments) :
        (spellAll words).length ≤ steps := by
      have filled : arguments.isEmpty = false := by
        rw [List.isEmpty_eq_false_iff]
        exact List.ne_nil_of_mem member
      obtain ⟨front, back, parts, -⟩ := exists_append_intercalate bracketed_comma
        (balanced_arguments each) (List.mem_map_of_mem member)
      rw [spell_mk, spellArguments, filled, if_neg (by decide), parts] at enough
      simp only [List.length_append, List.length_cons] at enough
      omega
    have some : ∀ words ∈ arguments, argumentTexts (spellAll words) ≠ [] := by
      intro words member
      obtain ⟨c, inside, own⟩ := exists_baseChar_spellAll (filled words member) (each words member)
      exact argumentTexts_ne_nil inside (ne_of_isBaseChar own (by decide))
        (visible_of_isBaseChar own)
    have single : ∀ words ∈ arguments, (argumentTexts (spellAll words)).length = 1 →
        argumentTexts (spellAll words) = [spellAll words] := by
      intro words member one
      refine (argumentTexts_spellAll_iff (filled words member) (each words member)).mpr ?_
      intro word inside text ranked comma
      have two := two_argumentTexts_spellAll (each words member) inside ranked comma
      omega
    -- Every group gives at least one text, so that an argument more cannot be made up for.
    rw [parseWord_spell _ (.mk named plain ranked filled each), Word.mk.injEq,
      flatMap_map_eq_iff some single]
    simp only [true_and]
    refine forall₂_congr fun words member => ?_
    rw [argumentTexts_spellAll_iff (filled words member) (each words member),
      parseWithin_spellAll_iff (each words member) (shorter member) (ih words member)]
    constructor
    · rintro ⟨own, inside⟩ inner member
      exact Word.commaFree_iff.mpr ⟨own inner member, inside inner member⟩
    · intro free
      exact ⟨fun inner member => (Word.commaFree_iff.mp (free inner member)).1,
        fun inner member => (Word.commaFree_iff.mp (free inner member)).2⟩

/-- Well-formed words are read back from their spelling exactly if no word inside of an argument has
a comma in its rank. -/
theorem parse_render_iff {words : List Word} (wellFormed : ∀ word ∈ words, word.WellFormed)
    (position : Position) : parse (render words .snake position) = words ↔
      ∀ word ∈ words, ∀ group ∈ word.arguments, ∀ inner ∈ group, inner.CommaFree := by
  rw [parse, toList_render_snake, parseChars]
  exact parseWithin_spellAll_iff wellFormed le_rfl fun word member steps enough =>
    parseWord_spell_iff (wellFormed word member) steps enough

theorem wellFormed_of_base {base : String} (named : base.toList ≠ [])
    (plain : base.toList.all isBaseChar = true) : (Word.mk base none []).WellFormed :=
  .mk named (List.all_eq_true.mp plain) (by simp) (by simp) (by simp)

/-- The word `grid<key_type, list<id[]>>[,]`: only the outermost rank has a comma. -/
def gridWord : Word :=
  .mk "grid" (some "[,]") [[.mk "key" none [], .mk "type" none []],
    [.mk "list" none [[.mk "id" (some "[]") []]]]]

theorem parse_render_iff_grid : gridWord.WellFormed ∧
    parse (render [gridWord, .mk "map" none []] .snake .declaration) =
      [gridWord, .mk "map" none []] := by
  have rank : ∀ text ∈ some "[]", RankGroups (· = ',') text.toList := by
    rintro _ ⟨⟩
    exact ⟨[[]], by simp, by simp, rfl⟩
  have matrix : ∀ text ∈ some "[,]", RankGroups (· = ',') text.toList := by
    rintro _ ⟨⟩
    exact ⟨[[',']], by simp, by simp, rfl⟩
  have id : (Word.mk "id" (some "[]") []).WellFormed :=
    .mk (by decide) (List.all_eq_true.mp (by decide)) rank (by simp) (by simp)
  have list : (Word.mk "list" none [[.mk "id" (some "[]") []]]).WellFormed :=
    .mk (by decide) (List.all_eq_true.mp (by decide)) (by simp) (by simp) (by simpa using id)
  have grid : gridWord.WellFormed := by
    refine .mk (by decide) (List.all_eq_true.mp (by decide)) matrix (by simp) ?_
    have key := @wellFormed_of_base "key" (by decide) (by decide)
    have type := @wellFormed_of_base "type" (by decide) (by decide)
    simpa using ⟨⟨key, type⟩, list⟩
  have words : ∀ word ∈ [gridWord, .mk "map" none []], word.WellFormed := by
    have map := @wellFormed_of_base "map" (by decide) (by decide)
    simpa using ⟨grid, map⟩
  refine ⟨grid, (parse_render_iff words .declaration).mpr ?_⟩
  have plain (base : String) : (Word.mk base none []).CommaFree := .mk (by simp) (by simp)
  have inner : (Word.mk "id" (some "[]") []).CommaFree :=
    .mk (by rintro _ ⟨⟩; decide) (by simp)
  have outer : (Word.mk "list" none [[.mk "id" (some "[]") []]]).CommaFree :=
    .mk (by simp) (by simpa using inner)
  simpa [gridWord, Word.arguments] using ⟨⟨plain "key", plain "type"⟩, outer⟩

/-- The word `map<matrix[,]>`. -/
def matrixWord : Word :=
  .mk "map" none [[.mk "matrix" (some "[,]") []]]

/-- The rank of an argument is torn at its comma. -/
theorem parse_render_matrix : matrixWord.WellFormed ∧
    parse (render [matrixWord] .snake .declaration) ≠ [matrixWord] := by
  have matrix : (Word.mk "matrix" (some "[,]") []).WellFormed := by
    refine .mk (by decide) (List.all_eq_true.mp (by decide)) ?_ (by simp) (by simp)
    rintro _ ⟨⟩
    exact ⟨[[',']], by simp, by simp, rfl⟩
  refine ⟨.mk (by decide) (List.all_eq_true.mp (by decide)) (by simp) (by simp)
    (by simpa using matrix), ?_⟩
  intro same
  have counts := congrArg (fun words => words.map fun word => word.arguments.length) same
  revert counts
  decide +kernel

end TypeLoom.Name
