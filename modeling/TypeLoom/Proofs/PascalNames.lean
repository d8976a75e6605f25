import TypeLoom.Name.Render
import TypeLoom.Proofs.BracketedTexts

/-! Pascal case a second time. Joining erases the boundaries of words, and a second pass finds
others: words that do not begin with a letter, or rank groups that were words of their own, join the
word in front. Yet each character stays as it is, because one pass amounts to dropping separators
and raising what follows a separator or a dot. Main result: a name in Pascal case keeps its form,
unless it is a keyword with ranks that the first pass took for several words, which the second
lowers. -/
namespace TypeLoom.Name
open Text (isBlank)

/-! ### Characters of plain names -/

/-- ASCII characters that do not belong to a list of arguments. -/
def isPlainChar (c : Char) : Bool :=
  c.toNat < 0x80 && !(['<', ' ', ','].contains c)

/-- Characters that stand between words and in none. -/
def separates (c : Char) : Bool :=
  c == '_' || c == '-' || c == ':' || c == '/'

/-- Characters of a plain name in normal form, between two separators. -/
def isWordChar (c : Char) : Bool :=
  isPlainChar c && !c.isUpper && !separates c

theorem ascii_of_isPlainChar {c : Char} (plain : isPlainChar c = true) : c.toNat < 0x80 := by
  simp only [isPlainChar, Bool.and_eq_true, decide_eq_true_eq] at plain
  exact plain.1

theorem ascii_of_isLower {c : Char} (lower : c.isLower = true) : c.toNat < 0x80 := by
  have last : c.val ≤ 'z'.val := of_decide_eq_true (Bool.and_eq_true_iff.mp lower).2
  exact (UInt32.le_iff_toNat_le.mp last).trans_lt (by decide)

/-- There are so few ASCII characters that what is said of them can be decided. -/
theorem exists_code {c : Char} (ascii : c.toNat < 0x80) : ∃ code < 0x80, c = Char.ofNat code :=
  ⟨c.toNat, ascii, (Char.ofNat_toNat c).symm⟩

theorem isPlainChar_of_isWordChar {c : Char} (word : isWordChar c = true) :
    isPlainChar c = true := by
  simp only [isWordChar, Bool.and_eq_true] at word
  exact word.1.1

theorem separates_of_isWordChar {c : Char} (word : isWordChar c = true) : separates c = false := by
  simp only [isWordChar, Bool.and_eq_true, Bool.not_eq_true'] at word
  exact word.2

theorem foldSeparator_of_isWordChar {c : Char} (word : isWordChar c = true) :
    foldSeparator c = c := by
  have other := separates_of_isWordChar word
  simp only [separates, Bool.or_eq_false_iff] at other
  simp [foldSeparator, other]

theorem ne_underscore_of_isWordChar {c : Char} (word : isWordChar c = true) :
    (c == '_') = false := by
  have other := separates_of_isWordChar word
  simp only [separates, Bool.or_eq_false_iff] at other
  exact other.1.1.1

theorem plainChar_cases {c : Char} (plain : isPlainChar c = true) :
    (c.isUpper = true ∧ isWordChar c.toLower = true ∧ c.toLower.toUpper = c ∧ c.toUpper = c ∧
      (c.toLower == '.') = false ∧ (c == '.') = false ∧ opensWord c = false ∧
      separates c = false) ∨
    (c.isUpper = false ∧ separates c = true ∧ foldSeparator c = '_') ∨
    (c.isUpper = false ∧ isWordChar c = true ∧ opensWord c = (c == '.')) := by
  obtain ⟨code, small, rfl⟩ := exists_code (ascii_of_isPlainChar plain)
  revert code
  decide +kernel

theorem raised_of_isPlainChar {c : Char} (plain : isPlainChar c = true) :
    isPlainChar c.toUpper = true ∧ c.toUpper.toUpper = c.toUpper ∧
      separates c.toUpper = separates c ∧ (c.toUpper == '.') = (c == '.') ∧
      c.toUpper.isLower = false := by
  obtain ⟨code, small, rfl⟩ := exists_code (ascii_of_isPlainChar plain)
  revert code
  decide +kernel

/-! ### One pass -/

/-- Characters are dropped, and raised at the start and after a dropped character or a dot. -/
def pascalFrom (drops : Char → Bool) : (raised : Bool) → List Char → List Char
  | _, [] => []
  | raised, c :: rest =>
    if drops c then pascalFrom drops true rest
    else (if raised then c.toUpper else c) :: pascalFrom drops (c == '.') rest

section step
variable {drops : Char → Bool} {c : Char}

theorem pascalFrom_drop (dropped : drops c = true) (raised : Bool) (rest : List Char) :
    pascalFrom drops raised (c :: rest) = pascalFrom drops true rest := by
  rw [pascalFrom, if_pos dropped]

theorem pascalFrom_keep (kept : drops c = false) (raised : Bool) (rest : List Char) :
    pascalFrom drops raised (c :: rest) =
      (if raised then c.toUpper else c) :: pascalFrom drops (c == '.') rest := by
  rw [pascalFrom, kept, if_neg Bool.false_ne_true]

end step

theorem wordMark_cases (previous : Option Char) :
    wordMark previous = [] ∨ wordMark previous = ['_'] := by
  cases previous with
  | none => exact .inl rfl
  | some c => cases opens : opensWord c <;> simp [wordMark, opens]

theorem pascalFrom_normal {raw : List Char} (plain : ∀ c ∈ raw, isPlainChar c = true)
    {previous : Option Char} {raised : Bool} (start : wordMark previous = [] → raised = true) :
    pascalFrom (· == '_') raised ((lowerFrom previous raw).map foldSeparator) =
      pascalFrom separates raised raw := by
  induction raw generalizing previous raised with
  | nil => rfl
  | cons c rest ih =>
    rw [List.forall_mem_cons] at plain
    have ascii := ascii_of_isPlainChar plain.1
    rw [lowerFrom, Text.isUppercase, if_pos ascii, Text.lower, if_pos ascii, List.map_append]
    rcases plainChar_cases plain.1 with ⟨upper, lowered, back, same, lowerDot, dot, other, kept⟩ |
      ⟨lower, drops, folded⟩ | ⟨lower, word, opens⟩
    · have after := @ih plain.2 (some c) false (by simp [wordMark, other])
      have letter (start : Bool) : pascalFrom (· == '_') start
          (c.toLower :: (lowerFrom (some c) rest).map foldSeparator) =
            (if start then c else c.toLower) :: pascalFrom separates false rest := by
        rw [@pascalFrom_keep (· == '_') c.toLower (ne_underscore_of_isWordChar lowered), back,
          lowerDot, after]
      have raise : (if raised then c.toUpper else c) = c := by rw [same, ite_self]
      rw [upper, if_pos rfl, List.map_append, List.map_singleton,
        foldSeparator_of_isWordChar lowered, pascalFrom_keep kept, dot, raise]
      -- The mark in front has the letter raised; where there is none, it would be raised anyway.
      rcases wordMark_cases previous with none | mark
      · rw [none, start none]
        exact letter true
      · rw [mark]
        exact letter true
    · rw [lower, if_neg (by decide), List.map_singleton, folded, List.singleton_append,
        pascalFrom_drop (by rfl), pascalFrom_drop drops]
      exact ih plain.2 fun _ => rfl
    · rw [lower, if_neg (by decide), List.map_singleton, foldSeparator_of_isWordChar word,
        List.singleton_append, @pascalFrom_keep (· == '_') c (ne_underscore_of_isWordChar word),
        pascalFrom_keep (separates_of_isWordChar word)]
      congr 1
      refine ih plain.2 fun unmarked => ?_
      rw [← opens]
      by_contra closed
      simp [wordMark, closed] at unmarked

/-- After a pass there is nothing to drop, and whatever would be raised has been raised. -/
theorem pascalFrom_pascalFrom {raw : List Char} (plain : ∀ c ∈ raw, isPlainChar c = true)
    {raised again : Bool} (earlier : again = true → raised = true) :
    pascalFrom separates again (pascalFrom separates raised raw) =
      pascalFrom separates raised raw := by
  induction raw generalizing raised again with
  | nil => rfl
  | cons c rest ih =>
    rw [List.forall_mem_cons] at plain
    obtain ⟨-, twice, separated, dotted, -⟩ := raised_of_isPlainChar plain.1
    cases dropped : separates c with
    | true =>
      rw [pascalFrom_drop dropped]
      exact ih plain.2 fun _ => rfl
    | false =>
      rw [pascalFrom_keep dropped]
      cases raised with
      | true =>
        have same : (if again then c.toUpper.toUpper else c.toUpper) = c.toUpper := by
          rw [twice, ite_self]
        rw [if_pos rfl, pascalFrom_keep (separated.trans dropped), same, dotted, ih plain.2 id]
      | false =>
        have first : again = false := by
          rw [← Bool.not_eq_true]
          exact fun raises => Bool.false_ne_true (earlier raises)
        rw [if_neg Bool.false_ne_true, pascalFrom_keep dropped, first, if_neg Bool.false_ne_true,
          ih plain.2 id]

/-! ### Words -/

theorem pascalFrom_append {drops : Char → Bool} {back : List Char}
    (kept : ∀ c ∈ back, drops c = false) (fixed : ∀ c ∈ back, c.toUpper = c) (front : List Char)
    (raised : Bool) : pascalFrom drops raised (front ++ back) =
      pascalFrom drops raised front ++ back := by
  induction front generalizing raised with
  | nil =>
    rw [List.nil_append, pascalFrom, List.nil_append]
    induction back generalizing raised with
    | nil => rfl
    | cons c back ih =>
      rw [List.forall_mem_cons] at kept fixed
      rw [pascalFrom_keep kept.1, fixed.1, ite_self, ih kept.2 fixed.2]
  | cons c front ih =>
    rw [List.cons_append, pascalFrom, pascalFrom]
    split_ifs <;> simp [ih]

theorem intercalate_cons_head (separator : List Char) (c : Char) (first : List Char)
    (rest : List (List Char)) :
    separator.intercalate ((c :: first) :: rest) = c :: separator.intercalate (first :: rest) := by
  cases rest <;> simp [List.intercalate_cons_cons]

/-- Raising the first letters of segments is raising after dots; the first segment may have lost its
own first letter. -/
theorem intercalate_segments {text : List Char} (ascii : ∀ c ∈ text, c.toNat < 0x80) :
    ∃ first rest, Text.splitAt '.' text = first :: rest ∧
      ['.'].intercalate (first :: rest.map Text.capitalize) =
        pascalFrom (fun _ => false) false text ∧
      ['.'].intercalate (Text.capitalize first :: rest.map Text.capitalize) =
        pascalFrom (fun _ => false) true text := by
  induction text with
  | nil => exact ⟨[], [], rfl, rfl, rfl⟩
  | cons c text ih =>
    rw [List.forall_mem_cons] at ascii
    obtain ⟨first, rest, cut, lower, raised⟩ := ih ascii.2
    by_cases dot : c = '.'
    · subst dot
      have after : ['.'].intercalate ([] :: (first :: rest).map Text.capitalize) =
          '.' :: pascalFrom (fun _ => false) true text := by
        rw [List.map_cons, List.intercalate_cons_cons, raised]
        rfl
      refine ⟨[], first :: rest, by rw [Text.splitAt, if_pos rfl, cut], ?_, ?_⟩
      · rw [after, pascalFrom_keep rfl]
        rfl
      · rw [Text.capitalize, after, pascalFrom_keep rfl]
        rfl
    · have other : (c == '.') = false := by simp [dot]
      refine ⟨c :: first, rest, by rw [Text.splitAt, if_neg dot, cut, Text.consHead], ?_, ?_⟩
      · rw [intercalate_cons_head, lower, pascalFrom_keep rfl, other]
        rfl
      · rw [Text.capitalize, Text.upper, if_pos ascii.1, List.singleton_append,
          intercalate_cons_head, lower, pascalFrom_keep rfl, other]
        rfl

theorem toList_capitalizeSegments {base : List Char} (ascii : ∀ c ∈ base, c.toNat < 0x80) :
    (capitalizeSegments (String.ofList base)).toList = pascalFrom (fun _ => false) true base := by
  obtain ⟨first, rest, cut, -, raised⟩ := intercalate_segments ascii
  rw [capitalizeSegments, String.toList_ofList, cut, String.toList_intercalate, List.map_map,
    ← raised]
  simp [Function.comp_def]

theorem exists_splitAt (text : List Char) : ∃ first rest, Text.splitAt '_' text = first :: rest ∧
    ∀ raised, pascalFrom (fun _ => false) raised first ++
      rest.flatMap (pascalFrom (fun _ => false) true) = pascalFrom (· == '_') raised text := by
  induction text with
  | nil => exact ⟨[], [], rfl, fun _ => rfl⟩
  | cons c text ih =>
    obtain ⟨first, rest, cut, joined⟩ := ih
    by_cases mark : c = '_'
    · refine ⟨[], first :: rest, by rw [Text.splitAt, if_pos mark, cut], fun raised => ?_⟩
      rw [List.flatMap_cons, joined, @pascalFrom_drop (· == '_') c (by simp [mark])]
      rfl
    · refine ⟨c :: first, rest, by rw [Text.splitAt, if_neg mark, cut, Text.consHead],
        fun raised => ?_⟩
      rw [pascalFrom_keep rfl, List.cons_append, joined,
        @pascalFrom_keep (· == '_') c (by simp [mark])]

theorem flatMap_splitAt (text : List Char) :
    (Text.splitAt '_' text).flatMap (pascalFrom (fun _ => false) true) =
      pascalFrom (· == '_') true text := by
  obtain ⟨first, rest, cut, joined⟩ := exists_splitAt text
  rw [cut, List.flatMap_cons, joined]

/-! ### Reading plain names -/

theorem splitOutside_of_plain {text : List Char} (plain : '<' ∉ text) :
    splitOutside '_' 0 text = Text.splitAt '_' text := by
  induction text with
  | nil => rfl
  | cons c text ih =>
    rw [List.mem_cons, not_or] at plain
    rw [splitOutside, if_neg (Ne.symm plain.1), Text.splitAt, Nat.zero_sub, ih plain.2]
    by_cases closes : c = '>'
    · rw [if_pos closes, if_neg (by rw [closes]; decide)]
    · rw [if_neg closes]
      simp only [and_true]

theorem mem_splitAt {separator : Char} {text piece : List Char}
    (member : piece ∈ Text.splitAt separator text) {c : Char} (inside : c ∈ piece) :
    c ∈ text ∧ c ≠ separator := by
  induction text generalizing piece with
  | nil =>
    rw [List.mem_singleton.mp member] at inside
    cases inside
  | cons d text ih =>
    rw [Text.splitAt] at member
    split_ifs at member with cuts
    · rcases List.mem_cons.mp member with rfl | later
      · cases inside
      · exact (ih later inside).imp_left (List.mem_cons_of_mem d)
    · cases cut : Text.splitAt separator text with
      | nil =>
        rw [cut, Text.consHead, List.mem_singleton] at member
        rw [member, List.mem_singleton] at inside
        exact ⟨by simp [inside], inside ▸ cuts⟩
      | cons first rest =>
        rw [cut, Text.consHead, List.mem_cons] at member
        rw [cut] at ih
        rcases member with rfl | later
        · rcases List.mem_cons.mp inside with rfl | after
          · exact ⟨List.mem_cons_self, cuts⟩
          · exact (ih List.mem_cons_self after).imp_left (List.mem_cons_of_mem d)
        · exact (ih (List.mem_cons_of_mem _ later) inside).imp_left (List.mem_cons_of_mem d)

theorem mem_normal {raw : List Char} (plain : ∀ c ∈ raw, isPlainChar c = true)
    {previous : Option Char} {c : Char}
    (member : c ∈ (lowerFrom previous raw).map foldSeparator) : c = '_' ∨ isWordChar c = true := by
  induction raw generalizing previous with
  | nil => cases member
  | cons d rest ih =>
    rw [List.forall_mem_cons] at plain
    have ascii := ascii_of_isPlainChar plain.1
    rw [lowerFrom, Text.isUppercase, if_pos ascii, Text.lower, if_pos ascii, List.map_append,
      List.mem_append] at member
    rcases member with own | later
    · rcases plainChar_cases plain.1 with ⟨upper, lowered, -⟩ | ⟨lower, -, folded⟩ |
        ⟨lower, word, -⟩
      · rw [upper, if_pos rfl, List.map_append, List.mem_append, List.map_singleton,
          foldSeparator_of_isWordChar lowered, List.mem_singleton] at own
        rcases own with mark | same
        · rcases wordMark_cases previous with none | one
          · rw [none] at mark
            cases mark
          · rw [one] at mark
            exact .inl (List.mem_singleton.mp mark)
        · exact .inr (same ▸ lowered)
      · rw [lower, if_neg (by decide), List.map_singleton, folded, List.mem_singleton] at own
        exact .inl own
      · rw [lower, if_neg (by decide), List.map_singleton, foldSeparator_of_isWordChar word,
          List.mem_singleton] at own
        exact .inr (own ▸ word)
    · exact ih plain.2 later

def plainWords (raw : List Char) : List (List Char) :=
  (Text.splitAt '_' (normalChars raw)).filter (· ≠ [])

theorem of_mem_plainWords {raw : List Char} (plain : ∀ c ∈ raw, isPlainChar c = true)
    {word : List Char} (member : word ∈ plainWords raw) :
    word ≠ [] ∧ ∀ c ∈ word, isWordChar c = true := by
  rw [plainWords, List.mem_filter, decide_eq_true_eq] at member
  refine ⟨member.2, fun c inside => ?_⟩
  obtain ⟨within, other⟩ := mem_splitAt member.1 inside
  exact (mem_normal plain within).resolve_left other

def plainWord (word : List Char) : Word :=
  .mk (String.ofList (splitRank word).1) ((splitRank word).2.map String.ofList) []

theorem parseWord_of_plain (parse : List Char → List Word) {word : List Char} (plain : '<' ∉ word) :
    parseWord parse word = plainWord word := by
  have head : '<' ∉ (splitRank word).1 := by
    intro member
    rw [(splitRank_parts word).1, List.mem_append, not_or] at plain
    exact plain.1 member
  rw [parseWord]
  dsimp only
  rw [splitArguments_of_plain head]
  rfl

theorem parse_normalize {raw : String} (plain : ∀ c ∈ raw.toList, isPlainChar c = true) :
    parse (normalize raw) = (plainWords raw.toList).map plainWord := by
  have unbracketed {c : Char} (member : c ∈ normalChars raw.toList) : c ≠ '<' := by
    rintro rfl
    exact absurd (mem_normal plain member) (by decide)
  rw [parse, normalize, String.toList_ofList, parseChars]
  cases size : (normalChars raw.toList).length with
  | zero => simp [plainWords, List.length_eq_zero_iff.mp size, parseWithin, Text.splitAt]
  | succ size =>
    rw [parseWithin, splitOutside_of_plain fun member => unbracketed member rfl]
    refine List.map_congr_left fun word member => parseWord_of_plain _ fun inside => ?_
    rw [List.mem_filter] at member
    exact unbracketed (mem_splitAt member.1 inside).1 rfl

/-! ### Writing plain names -/

theorem renderWords_pascal (position : Position) (count : Nat) (first : Bool) (words : List Word) :
    renderWords .pascal position count first words = words.map fun word =>
      renderWord .pascal (!(count == 1 && keepsSpelling position word.base)) word := by
  induction words generalizing first with
  | nil => rw [renderWords, List.map_nil]
  | cons word words ih => simp [renderWords, ih, Casing.raises]

theorem toUpper_of_isBlank {c : Char} (plain : isPlainChar c = true) (blank : isBlank c = true) :
    c.toUpper = c := by
  obtain ⟨code, small, rfl⟩ := exists_code (ascii_of_isPlainChar plain)
  revert code
  decide +kernel

theorem toUpper_of_mem_rank {word : List Char} (plain : ∀ c ∈ word, isPlainChar c = true) :
    ∀ c ∈ (splitRank word).2.getD [], c.toUpper = c := by
  obtain ⟨parts, groups⟩ := splitRank_parts word
  intro c member
  have own : isPlainChar c = true := plain c (parts ▸ List.mem_append_right _ member)
  cases found : (splitRank word).2 with
  | none =>
    rw [found] at member
    cases member
  | some rank =>
    rw [found] at member
    rcases (groups rank found).mem member with rfl | (rfl | blank) | rfl
    · rfl
    · rfl
    · exact toUpper_of_isBlank own blank
    · rfl

theorem toList_renderWord_plain {word : List Char} (chars : ∀ c ∈ word, isWordChar c = true)
    (raised : Bool) : (renderWord .pascal raised (plainWord word)).toList =
      if raised then pascalFrom (fun _ => false) true word else word := by
  have parts := (splitRank_parts word).1
  have rank : (((splitRank word).2.map String.ofList).getD "").toList =
      (splitRank word).2.getD [] := by
    cases (splitRank word).2 <;> simp
  have plain : ∀ c ∈ word, isPlainChar c = true := fun c member =>
    isPlainChar_of_isWordChar (chars c member)
  rw [plainWord, renderWord, String.append_empty, String.toList_append, rank]
  cases raised with
  | true =>
    have ascii : ∀ c ∈ (splitRank word).1, c.toNat < 0x80 := by
      intro c member
      refine ascii_of_isPlainChar (plain c ?_)
      rw [parts]
      exact List.mem_append_left _ member
    rw [if_pos rfl, toList_capitalizeSegments ascii, if_pos rfl,
      ← pascalFrom_append (fun _ _ => rfl) (toUpper_of_mem_rank plain), ← parts]
  | false =>
    rw [if_neg Bool.false_ne_true, String.toList_ofList, ← parts, if_neg Bool.false_ne_true]

theorem intercalate_empty (texts : List (List Char)) :
    ([] : List Char).intercalate texts = texts.flatten := by
  induction texts with
  | nil => rfl
  | cons text texts ih =>
    cases texts with
    | nil => simp
    | cons second texts =>
      rw [List.intercalate_cons_cons, ih, List.append_nil]
      rfl

theorem toList_convert_pascal {raw : String} (plain : ∀ c ∈ raw.toList, isPlainChar c = true)
    (position : Position) : (convert raw .pascal position).toList =
      (plainWords raw.toList).flatMap fun word =>
        if (plainWords raw.toList).length == 1 &&
          keepsSpelling position (String.ofList (splitRank word).1) then word
        else pascalFrom (fun _ => false) true word := by
  have joined (texts : List String) : (Casing.pascal.separator.intercalate texts).toList =
      (texts.map String.toList).flatten := by
    rw [String.toList_intercalate]
    exact intercalate_empty _
  rw [convert, render, renderWords_pascal, parse_normalize plain, joined, List.map_map,
    List.map_map, List.length_map, ← List.flatMap_def]
  refine List.flatMap_congr fun word member => ?_
  rw [Function.comp_apply, Function.comp_apply,
    toList_renderWord_plain (of_mem_plainWords plain member).2, plainWord, Word.base]
  cases (plainWords raw.toList).length == 1 &&
    keepsSpelling position (String.ofList (splitRank word).1) <;> rfl

/-- The name is one word, and its base is a keyword that keeps its spelling. -/
def KeptAs (position : Position) (raw word : List Char) : Prop :=
  plainWords raw = [word] ∧ keepsSpelling position (String.ofList (splitRank word).1) = true

theorem flatMap_plainWords {raw : List Char} (plain : ∀ c ∈ raw, isPlainChar c = true) :
    (plainWords raw).flatMap (pascalFrom (fun _ => false) true) =
      pascalFrom separates true raw := by
  have empty (words : List (List Char)) :
      (words.filter (· ≠ [])).flatMap (pascalFrom (fun _ => false) true) =
        words.flatMap (pascalFrom (fun _ => false) true) := by
    induction words with
    | nil => rfl
    | cons word words ih => cases word <;> simp_all [pascalFrom]
  rw [plainWords, empty, flatMap_splitAt, normalChars, pascalFrom_normal plain fun _ => rfl]

section pass
variable {raw : String} (plain : ∀ c ∈ raw.toList, isPlainChar c = true)
include plain

theorem toList_convert_of_kept {position : Position} {word : List Char}
    (kept : KeptAs position raw.toList word) : (convert raw .pascal position).toList = word := by
  rw [toList_convert_pascal plain, kept.1]
  simp [kept.2]

theorem toList_convert_of_raised {position : Position}
    (raised : ∀ word, ¬ KeptAs position raw.toList word) :
    (convert raw .pascal position).toList = pascalFrom separates true raw.toList := by
  rw [toList_convert_pascal plain, ← flatMap_plainWords plain]
  refine List.flatMap_congr fun word member => if_neg ?_
  rw [Bool.and_eq_true, beq_iff_eq, List.length_eq_one_iff]
  rintro ⟨⟨only, single⟩, keeps⟩
  rw [single, List.mem_singleton] at member
  exact raised word ⟨by rw [single, member], keeps⟩

end pass

/-! ### Keywords -/

/-- A keyword with its first letter raised, and rank groups behind it. -/
def RaisedKeyword (text : List Char) : Prop :=
  ∃ keyword ∈ keywords, ∃ rank, RankGroups (isBlank · = true) rank ∧
    text = (capitalize keyword).toList ++ rank

/-- What a lower-case letter has to do with its capital. -/
structure Lower (c : Char) : Prop where
  word : isWordChar c = true
  same : c.toLower = c
  ne_dot : c ≠ '.'
  ne_bracket : c ≠ ']'
  capital : c.toUpper.isUpper = true
  plain : isPlainChar c.toUpper = true
  back : c.toUpper.toLower = c
  ne_capital : c ≠ c.toUpper

theorem lower_of_isLower {c : Char} (lower : c.isLower = true) : Lower c := by
  have facts : isWordChar c = true ∧ c.toLower = c ∧ c ≠ '.' ∧ c ≠ ']' ∧ c.toUpper.isUpper = true ∧
      isPlainChar c.toUpper = true ∧ c.toUpper.toLower = c ∧ c ≠ c.toUpper := by
    obtain ⟨code, small, rfl⟩ := exists_code (ascii_of_isLower lower)
    revert code
    decide +kernel
  obtain ⟨word, same, dot, bracket, capital, plain, back, other⟩ := facts
  exact ⟨word, same, dot, bracket, capital, plain, back, other⟩

theorem keyword_letters {keyword : String} (member : keyword ∈ keywords) :
    ∃ c rest, keyword.toList = c :: rest ∧ Lower c ∧ ∀ d ∈ rest, Lower d := by
  have each : keywords.all fun keyword =>
      !keyword.toList.isEmpty && keyword.toList.all Char.isLower := by decide +kernel
  have own := List.all_eq_true.mp each keyword member
  rw [Bool.and_eq_true, Bool.not_eq_true', List.isEmpty_eq_false_iff, List.all_eq_true] at own
  obtain ⟨c, rest, parts⟩ := List.exists_cons_of_ne_nil own.1
  rw [parts, List.forall_mem_cons] at own
  exact ⟨c, rest, parts, lower_of_isLower own.2.1, fun d inside =>
    lower_of_isLower (own.2.2 d inside)⟩

theorem keyword_last {keyword : String} (member : keyword ∈ keywords) :
    ∃ d, keyword.toList.getLast? = some d ∧ d ≠ ']' := by
  obtain ⟨c, rest, parts, lower, letters⟩ := keyword_letters member
  obtain ⟨d, last⟩ : ∃ d, (c :: rest).getLast? = some d :=
    ⟨_, List.getLast?_eq_some_getLast (List.cons_ne_nil c rest)⟩
  refine ⟨d, parts ▸ last, ?_⟩
  rcases List.mem_cons.mp (List.mem_of_getLast? last) with rfl | inside
  · exact lower.ne_bracket
  · exact (letters d inside).ne_bracket

theorem keepsSpelling_iff {position : Position} {base : String} :
    keepsSpelling position base = true ↔ position = .declaration ∧ base ∈ keywords := by
  simp [keepsSpelling]

theorem toList_capitalize {keyword : String} {c : Char} {rest : List Char}
    (parts : keyword.toList = c :: rest) (lower : Lower c) :
    (capitalize keyword).toList = c.toUpper :: rest := by
  have ascii := ascii_of_isPlainChar (isPlainChar_of_isWordChar lower.word)
  rw [capitalize, String.toList_ofList, parts, Text.capitalize, Text.upper, if_pos ascii,
    List.singleton_append]

theorem splitAt_of_not_mem {separator : Char} {text : List Char} (absent : separator ∉ text) :
    Text.splitAt separator text = [text] := by
  induction text with
  | nil => rfl
  | cons c text ih =>
    rw [List.mem_cons, not_or] at absent
    rw [Text.splitAt, if_neg (Ne.symm absent.1), ih absent.2, Text.consHead]

theorem lowerFrom_of_word {word : List Char} (chars : ∀ c ∈ word, isWordChar c = true)
    (previous : Option Char) : (lowerFrom previous word).map foldSeparator = word := by
  induction word generalizing previous with
  | nil => rfl
  | cons c word ih =>
    rw [List.forall_mem_cons] at chars
    have lower : Text.isUppercase c = false := by
      rw [Text.isUppercase, if_pos (ascii_of_isPlainChar (isPlainChar_of_isWordChar chars.1))]
      simp only [isWordChar, Bool.and_eq_true, Bool.not_eq_true'] at chars
      exact chars.1.1.2
    rw [lowerFrom, lower, if_neg Bool.false_ne_true, List.map_append, ih chars.2,
      List.map_singleton, foldSeparator_of_isWordChar chars.1, List.singleton_append]

theorem plainWords_of_normal {raw word : List Char} (normal : normalChars raw = word)
    (some : word ≠ []) (chars : ∀ c ∈ word, isWordChar c = true) : plainWords raw = [word] := by
  have absent : '_' ∉ word := fun member => absurd (chars '_' member) (by decide)
  rw [plainWords, normal, splitAt_of_not_mem absent]
  simpa using some

theorem plainWords_of_word {word : List Char} (some : word ≠ [])
    (chars : ∀ c ∈ word, isWordChar c = true) : plainWords word = [word] :=
  plainWords_of_normal (lowerFrom_of_word chars none) some chars

theorem plainWords_of_capital {c : Char} (lower : Lower c) {rest : List Char}
    (chars : ∀ d ∈ rest, isWordChar d = true) : plainWords (c.toUpper :: rest) = [c :: rest] := by
  have ascii := ascii_of_isPlainChar lower.plain
  refine plainWords_of_normal ?_ (by simp) (List.forall_mem_cons.mpr ⟨lower.word, chars⟩)
  rw [normalChars, lowerFrom, Text.isUppercase, if_pos ascii, lower.capital, if_pos rfl, Text.lower,
    if_pos ascii, lower.back, List.map_append, lowerFrom_of_word chars, wordMark, List.nil_append,
    List.map_singleton, foldSeparator_of_isWordChar lower.word, List.singleton_append]

theorem isWordChar_of_mem_rank {rank : List Char} (groups : RankGroups (isBlank · = true) rank)
    (plain : ∀ c ∈ rank, isPlainChar c = true) : ∀ c ∈ rank, isWordChar c = true := by
  have blank {c : Char} (plain : isPlainChar c = true) (blank : isBlank c = true) :
      isWordChar c = true := by
    obtain ⟨code, small, rfl⟩ := exists_code (ascii_of_isPlainChar plain)
    revert code
    decide +kernel
  intro c member
  rcases groups.mem member with rfl | own | rfl
  · decide
  · exact blank (plain c member) own
  · decide

theorem keptAs_of_raisedKeyword {text : List Char} (plain : ∀ c ∈ text, isPlainChar c = true)
    (raised : RaisedKeyword text) : ∃ word, KeptAs .declaration text word := by
  obtain ⟨keyword, member, rank, groups, rfl⟩ := raised
  obtain ⟨c, rest, parts, lower, letters⟩ := keyword_letters member
  rw [toList_capitalize parts lower, List.cons_append] at plain ⊢
  refine ⟨keyword.toList ++ rank, ?_, ?_⟩
  · rw [parts]
    refine plainWords_of_capital lower ?_
    rw [List.forall_mem_append]
    constructor
    · exact fun d inside => (letters d inside).word
    · refine isWordChar_of_mem_rank groups fun d inside => plain d ?_
      exact List.mem_cons_of_mem _ (List.mem_append_right _ inside)
  · obtain ⟨d, last, other⟩ := keyword_last member
    rw [splitRank_append last other (fun _ blank => .inr blank) groups, String.ofList_toList,
      keepsSpelling_iff]
    exact ⟨rfl, member⟩

theorem pascalFrom_letters {c : Char} (lower : Lower c) {rest : List Char}
    (letters : ∀ d ∈ rest, Lower d) :
    pascalFrom (fun _ => false) true (c :: rest) = c.toUpper :: rest := by
  have later : pascalFrom (fun _ => false) false rest = rest := by
    induction rest with
    | nil => rfl
    | cons d rest ih =>
      rw [List.forall_mem_cons] at letters
      rw [pascalFrom_keep rfl, beq_false_of_ne letters.1.ne_dot, ih letters.2]
      rfl
  rw [pascalFrom_keep rfl, beq_false_of_ne lower.ne_dot, later]
  rfl

theorem raisedKeyword_of_keptAs {text : List Char} (plain : ∀ c ∈ text, isPlainChar c = true)
    (stable : pascalFrom separates true text = text) {position : Position} {word : List Char}
    (kept : KeptAs position text word) : position = .declaration ∧ word ≠ text ∧
      (RaisedKeyword text ∨ ∃ keyword ∈ keywords, text = (capitalize keyword).toList) := by
  obtain ⟨single, keeps⟩ := kept
  obtain ⟨rfl, member⟩ := keepsSpelling_iff.mp keeps
  obtain ⟨c, rest, parts, lower, letters⟩ := keyword_letters member
  have capital := toList_capitalize parts lower
  rw [String.toList_ofList] at parts
  obtain ⟨whole, groups⟩ := splitRank_parts word
  have chars := (of_mem_plainWords plain (single ▸ List.mem_singleton_self word)).2
  have plainWord : ∀ d ∈ word, isPlainChar d = true := fun d inside =>
    isPlainChar_of_isWordChar (chars d inside)
  rw [← flatMap_plainWords plain, single, List.flatMap_singleton, whole,
    pascalFrom_append (fun _ _ => rfl) (toUpper_of_mem_rank plainWord), parts,
    pascalFrom_letters lower letters] at stable
  refine ⟨rfl, ?_, ?_⟩
  · rw [← stable, whole, parts]
    exact fun same => lower.ne_capital (List.cons.inj same).1
  · cases found : (splitRank word).2 with
    | none =>
      rw [found] at stable
      exact .inr ⟨_, member, by rw [capital, ← stable]; simp⟩
    | some rank =>
      rw [found] at stable whole
      refine .inl ⟨_, member, rank, ?_, by rw [capital]; exact stable.symm⟩
      refine (groups rank found).weaken fun d inside own => own.resolve_left ?_
      rintro rfl
      exact absurd (plainWord ',' (whole ▸ List.mem_append_right _ inside)) (by decide)

theorem map_toLower_pascalFrom {word : List Char} (chars : ∀ c ∈ word, isWordChar c = true)
    (raised : Bool) : (pascalFrom (fun _ => false) raised word).map Char.toLower = word := by
  have lowered {c : Char} (word : isWordChar c = true) :
      c.toUpper.toLower = c ∧ c.toLower = c := by
    obtain ⟨code, small, rfl⟩ := exists_code (ascii_of_isPlainChar (isPlainChar_of_isWordChar word))
    revert code
    decide +kernel
  induction word generalizing raised with
  | nil => rfl
  | cons c word ih =>
    rw [List.forall_mem_cons] at chars
    obtain ⟨back, same⟩ := lowered chars.1
    rw [pascalFrom_keep rfl, List.map_cons, ih chars.2]
    cases raised with
    | true => rw [if_pos rfl, back]
    | false => rw [if_neg Bool.false_ne_true, same]

/-- A pass gives a raised keyword only from the keyword itself: a second word would begin with a
character that is no lower-case letter. -/
theorem keptAs_of_capital {raw : List Char} (plain : ∀ c ∈ raw, isPlainChar c = true)
    {keyword : String} (member : keyword ∈ keywords)
    (raised : pascalFrom separates true raw = (capitalize keyword).toList) :
    KeptAs .declaration raw keyword.toList := by
  obtain ⟨c, rest, parts, lower, letters⟩ := keyword_letters member
  obtain ⟨d, last, other⟩ := keyword_last member
  rw [← flatMap_plainWords plain, toList_capitalize parts lower] at raised
  have each {word : List Char} (inside : word ∈ plainWords raw) := of_mem_plainWords plain inside
  have only : plainWords raw = [keyword.toList] := by
    cases words : plainWords raw with
    | nil => rw [words] at raised; cases raised
    | cons word others =>
      rw [words] at raised each
      obtain ⟨some, chars⟩ := each List.mem_cons_self
      cases others with
      | nil =>
        rw [List.flatMap_singleton] at raised
        have back := map_toLower_pascalFrom chars true
        rw [raised, List.map_cons, lower.back, List.map_congr_left fun d inside =>
          (letters d inside).same, List.map_id', ← parts] at back
        rw [back]
      | cons second others =>
        obtain ⟨someSecond, charsSecond⟩ := each (List.mem_cons_of_mem _ List.mem_cons_self)
        obtain ⟨x, front, rfl⟩ := List.exists_cons_of_ne_nil some
        obtain ⟨y, back, rfl⟩ := List.exists_cons_of_ne_nil someSecond
        have own := isPlainChar_of_isWordChar (charsSecond y List.mem_cons_self)
        rw [List.flatMap_cons, List.flatMap_cons, pascalFrom_keep rfl, pascalFrom_keep rfl,
          if_pos rfl, if_pos rfl] at raised
        have inside : y.toUpper ∈ rest := by
          rw [← (List.cons.inj raised).2]
          simp
        exact absurd (raised_of_isPlainChar own).2.1.symm (letters _ inside).ne_capital
  refine ⟨only, ?_⟩
  rw [splitRank_of_last last other, String.ofList_toList, keepsSpelling_iff]
  exact ⟨rfl, member⟩

theorem not_raisedKeyword {text : List Char} (chars : ∀ c ∈ text, isWordChar c = true) :
    ¬ RaisedKeyword text := by
  rintro ⟨keyword, member, rank, -, rfl⟩
  obtain ⟨c, rest, parts, lower, -⟩ := keyword_letters member
  rw [toList_capitalize parts lower] at chars
  have first := chars c.toUpper (by simp)
  rw [isWordChar, lower.capital, Bool.not_true, Bool.and_false, Bool.false_and] at first
  cases first

/-! ### Two passes -/

theorem isPlainChar_pascalFrom {raw : List Char} (plain : ∀ c ∈ raw, isPlainChar c = true)
    (raised : Bool) : ∀ c ∈ pascalFrom separates raised raw, isPlainChar c = true := by
  induction raw generalizing raised with
  | nil => simp [pascalFrom]
  | cons c rest ih =>
    rw [List.forall_mem_cons] at plain
    rw [pascalFrom]
    split_ifs
    · exact ih plain.2 true
    · exact List.forall_mem_cons.mpr ⟨(raised_of_isPlainChar plain.1).1, ih plain.2 _⟩
    · exact List.forall_mem_cons.mpr ⟨plain.1, ih plain.2 _⟩

theorem convert_of_stable_iff {name : String} (plain : ∀ c ∈ name.toList, isPlainChar c = true)
    (stable : pascalFrom separates true name.toList = name.toList) {position : Position}
    (ranked : position = .declaration →
      ∀ keyword ∈ keywords, name.toList ≠ (capitalize keyword).toList) :
    convert name .pascal position = name ↔
      ¬ (position = .declaration ∧ RaisedKeyword name.toList) := by
  by_cases kept : ∃ word, KeptAs position name.toList word
  · obtain ⟨word, kept⟩ := kept
    obtain ⟨rfl, changed, raised⟩ := raisedKeyword_of_keptAs plain stable kept
    refine iff_of_false ?_ (not_not.mpr ⟨rfl, raised.resolve_right ?_⟩)
    · intro same
      rw [← toList_convert_of_kept plain kept, same] at changed
      exact changed rfl
    · rintro ⟨keyword, member, capital⟩
      exact ranked rfl keyword member capital
  · rw [not_exists] at kept
    refine iff_of_true
      (String.toList_inj.mp ((toList_convert_of_raised plain kept).trans stable)) ?_
    rintro ⟨rfl, raised⟩
    obtain ⟨word, taken⟩ := keptAs_of_raisedKeyword plain raised
    exact kept word taken

theorem convert_convert_iff {raw : String} (plain : ∀ c ∈ raw.toList, isPlainChar c = true)
    (position : Position) :
    convert (convert raw .pascal position) .pascal position = convert raw .pascal position ↔
      ¬ (position = .declaration ∧ RaisedKeyword (convert raw .pascal position).toList) := by
  generalize once : convert raw .pascal position = name
  by_cases kept : ∃ word, KeptAs position raw.toList word
  · -- The keyword was left in lower case and is found again.
    obtain ⟨word, kept⟩ := kept
    have text : name.toList = word := once ▸ toList_convert_of_kept plain kept
    obtain ⟨some, chars⟩ := of_mem_plainWords plain (kept.1 ▸ List.mem_singleton_self word)
    rw [← text] at some chars
    have plainName : ∀ c ∈ name.toList, isPlainChar c = true := fun c member =>
      isPlainChar_of_isWordChar (chars c member)
    have again : KeptAs position name.toList word := by
      refine ⟨?_, kept.2⟩
      rw [plainWords_of_word some chars, text]
    refine iff_of_true
      (String.toList_inj.mp ((toList_convert_of_kept plainName again).trans text.symm)) ?_
    rintro ⟨-, raised⟩
    exact not_raisedKeyword chars raised
  · rw [not_exists] at kept
    have text : name.toList = pascalFrom separates true raw.toList :=
      once ▸ toList_convert_of_raised plain kept
    refine convert_of_stable_iff ?_ ?_ ?_
    · rw [text]
      exact isPlainChar_pascalFrom plain true
    · rw [text]
      exact pascalFrom_pascalFrom plain id
    · rintro rfl keyword member capital
      exact kept _ (keptAs_of_capital plain member (text.symm.trans capital))

/-- A plain name in Pascal case stays as it is when it is put into Pascal case again, except for a
raised keyword with ranks in the place of a declaration. -/
theorem convert_pascal_twice_iff {raw : String} (plain : ∀ c ∈ raw.toList, isPlainChar c = true)
    (position : Position) :
    pascal (pascal raw) = pascal raw ∧
    (convert (convert raw .pascal position) .pascal position = convert raw .pascal position ↔
      ¬ (position = .declaration ∧ RaisedKeyword (convert raw .pascal position).toList)) := by
  refine ⟨(convert_convert_iff plain .member).mpr ?_, convert_convert_iff plain position⟩
  rintro ⟨declared, -⟩
  cases declared

theorem convert_pascal_twice_iff_server :
    "HTTP_server.v2[]".toList.all isPlainChar = true ∧
      pascal (pascal "HTTP_server.v2[]") = pascal "HTTP_server.v2[]" ∧
      convert (convert "HTTP_server.v2[]" .pascal .declaration) .pascal .declaration =
        convert "HTTP_server.v2[]" .pascal .declaration := by
  have plain : "HTTP_server.v2[]".toList.all isPlainChar = true := by decide
  obtain ⟨member, declaration⟩ :=
    convert_pascal_twice_iff (List.all_eq_true.mp plain) .declaration
  refine ⟨plain, member, declaration.mpr ?_⟩
  rintro ⟨-, keyword, member, rank, -, raised⟩
  have others : keywords.all fun keyword => !((capitalize keyword).toList.isPrefixOf
      (convert "HTTP_server.v2[]" .pascal .declaration).toList) := by decide +kernel
  have own := List.all_eq_true.mp others keyword member
  rw [raised, Bool.not_eq_true', ← Bool.not_eq_true, List.isPrefixOf_iff_prefix] at own
  exact own (List.prefix_append _ _)

/-- The rank becomes part of the word only on the second pass, and the word is a keyword then. -/
theorem convert_pascal_drifts : "string_[]".toList.all isPlainChar = true ∧
    convert (convert "string_[]" .pascal .declaration) .pascal .declaration ≠
      convert "string_[]" .pascal .declaration := by
  decide +kernel

end TypeLoom.Name
