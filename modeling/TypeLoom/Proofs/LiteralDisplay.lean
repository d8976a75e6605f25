import TypeLoom.Proofs.StringLiterals

/-! The text of a literal reads back. Strings are written with one kind of escape for each character
that does not show as itself, all of which the reader of string literals knows; words and brackets
delimit themselves. Main result: a value without numbers is the value of its own text. -/
namespace TypeLoom.Literal
open Text (isBlank)

theorem isHexDigit_digitChar : ∀ d < 16, isHexDigit d.digitChar = true := by decide

theorem hexDigitValue_digitChar : ∀ d < 16, hexDigitValue d.digitChar = d := by decide

theorem ofHexDigits_concat (digits : List Char) (c : Char) :
    ofHexDigits (digits ++ [c]) = ofHexDigits digits * 16 + hexDigitValue c := by
  rw [ofHexDigits, ofHexDigits, List.foldl_append]
  rfl

theorem numeral_hexDigits (signs : Bool) (n : Nat) : Numeral signs (Text.hexDigits n) n := by
  refine ⟨Text.hexDigits n, .inl rfl, ?_⟩
  rw [Text.hexDigits]
  induction n using Nat.strongRecOn with
  | ind n ih =>
    by_cases small : n < 16
    · rw [Nat.toDigits_of_lt_base small]
      refine ⟨⟨by simp, ?_⟩, ?_⟩
      · simpa using isHexDigit_digitChar n small
      · simpa [ofHexDigits] using hexDigitValue_digitChar n small
    · have below : n % 16 < 16 := Nat.mod_lt n (by decide)
      obtain ⟨⟨-, hex⟩, value⟩ := ih (n / 16) (by omega)
      rw [Nat.toDigits_of_base_le (by decide) (by omega)]
      refine ⟨⟨by simp, ?_⟩, ?_⟩
      · intro c member
        rw [List.mem_append, List.mem_singleton] at member
        obtain member | rfl := member
        · exact hex c member
        · exact isHexDigit_digitChar _ below
      · rw [ofHexDigits_concat, value, hexDigitValue_digitChar _ below]
        omega

theorem item_quoteChar (signs : Bool) (c : Char) : Item signs '"' (Text.quoteChar c) c := by
  have letter {mark : Char} (listed : (mark, c) ∈ letterEscapes) :
      Item signs '"' ['\\', mark] c := .escape (.letter listed)
  rw [Text.quoteChar]
  split_ifs with zero tab carriage feed quote slash visible
  · exact letter (by rw [zero]; decide)
  · exact letter (by rw [tab]; decide)
  · exact letter (by rw [carriage]; decide)
  · exact letter (by rw [feed]; decide)
  · exact letter (by rw [quote]; decide)
  · exact letter (by rw [slash]; decide)
  · exact .plain quote slash feed
  · exact .escape (.braced (numeral_hexDigits signs c.toNat))

theorem items_quote (signs : Bool) (text : List Char) :
    Items signs '"' (text.flatMap Text.quoteChar) text := by
  induction text with
  | nil => exact .nil
  | cons c text ih => exact .cons (item_quoteChar signs c) ih

/-- Values made of null, booleans and strings. -/
inductive Value.Numberless : Value → Prop
  | null : Numberless .null
  | bool (value : Bool) : Numberless (.bool value)
  | text (value : String) : Numberless (.text value)
  | array {items : List Value} (all : ∀ item ∈ items, item.Numberless) : Numberless (.array items)

def listed (items : List Value) : List Char :=
  [',', ' '].intercalate (items.map fun item => item.display.toList)

theorem listed_cons_cons (first second : Value) (rest : List Value) :
    listed (first :: second :: rest) =
      first.display.toList ++ ',' :: ' ' :: listed (second :: rest) := by
  rw [listed, listed, List.map_cons, List.map_cons, List.intercalate_cons_cons]
  simp

theorem toList_display_text (value : String) : (Value.text value).display.toList =
    '"' :: (value.toList.flatMap Text.quoteChar ++ ['"']) := by
  rw [Value.display, String.toList_ofList, Text.quote, List.cons_append]

theorem toList_display_array (items : List Value) :
    (Value.array items).display.toList = '[' :: (listed items ++ [']']) := by
  have inner : (", ".intercalate (displayAll items)).toList = listed items := by
    induction items with
    | nil => rfl
    | cons first rest ih =>
      cases rest with
      | nil => simp [displayAll, listed]
      | cons second rest =>
        rw [listed_cons_cons, ← ih, displayAll, displayAll, String.intercalate_cons_cons]
        simp
  rw [Value.display, String.toList_append, String.toList_append, inner]
  rfl

theorem readItems_end {steps : Nat} {c : Cursor} {after : List Char}
    (closes : c.skipBlanks.rest = ']' :: after) :
    readItems (steps + 1) c = .ok ([], c.skipBlanks.advance 1) := by
  rw [readItems, closes]
  rfl

section item
variable {steps : Nat} {c stop : Cursor} {first : Char} {rest after : List Char} {item : Value}
  (begins : c.skipBlanks.rest = first :: rest) (opens : first ≠ ']')
  (read : readValue steps c.skipBlanks = .ok (item, stop))
include begins opens read

theorem readItems_last (closes : stop.skipBlanks.rest = ']' :: after) :
    readItems (steps + 1) c = .ok ([item], stop.skipBlanks.advance 1) := by
  rw [readItems, begins]
  split
  · rename_i same
    cases same
  · rename_i same
    exact absurd (List.cons.inj same).1 opens
  · simp only [bind, Except.bind, read, closes]

theorem readItems_more (comma : stop.skipBlanks.rest = ',' :: after) {items : List Value}
    {last : Cursor} (others : readItems steps (stop.skipBlanks.advance 1) = .ok (items, last)) :
    readItems (steps + 1) c = .ok (item :: items, last) := by
  rw [readItems, begins]
  split
  · rename_i same
    cases same
  · rename_i same
    exact absurd (List.cons.inj same).1 opens
  · simp only [bind, Except.bind, read, comma, others]

end item

/-- No word goes on into the text. -/
def Stops (text : List Char) : Prop := text.takeWhile isWordChar = []

theorem readWord_append {word after : List Char} {v : Value} (letters : word.all isWordChar = true)
    (value : wordValue? (String.ofList word) = some v) (stops : Stops after) (offset : Nat) :
    readWord ⟨offset, word ++ after⟩ = .ok (v, ⟨offset + word.length, after⟩) := by
  have run : (word ++ after).takeWhile isWordChar = word := by
    rw [List.takeWhile_append_of_pos (List.all_eq_true.mp letters), stops, List.append_nil]
  rw [readWord, Cursor.span]
  dsimp only
  rw [run, value]
  dsimp only
  rw [Cursor.advance, List.drop_left]

/-- Characters that begin a word and nothing else. -/
def opensWord (c : Char) : Bool :=
  Text.isAlphabetic c && !isBlank c && !(['\x27', '"', '\x60', '[', '-', '+', '.'].contains c) &&
    !c.isDigit

theorem readValue_word {first : Char} {word : List Char} (opens : opensWord first = true)
    (steps offset : Nat) : readValue (steps + 1) ⟨offset, first :: word⟩ =
      readWord ⟨offset, first :: word⟩ := by
  simp only [opensWord, Bool.and_eq_true, Bool.not_eq_true', List.contains_eq_mem, List.mem_cons,
    List.not_mem_nil, or_false, decide_eq_false_iff_not, not_or] at opens
  obtain ⟨⟨⟨letter, visible⟩, single, double, tick, bracket, minus, plus, point⟩, digit⟩ := opens
  rw [readValue, skipBlanks_of_visible visible]
  simp [letter, single, double, tick, bracket, minus, plus, point, digit]

/-- The text of the value is read as the value, whatever follows that does not go on with a word. -/
def Value.Reads (v : Value) : Prop :=
  ∀ (steps offset : Nat) (after : List Char), 2 * v.display.toList.length ≤ steps → Stops after →
    ∃ stop, readValue steps ⟨offset, v.display.toList ++ after⟩ = .ok (v, stop) ∧ stop.rest = after

theorem reads_word {v : Value} {first : Char} {word : List Char} (opens : opensWord first = true)
    (display : v.display.toList = first :: word) (letters : (first :: word).all isWordChar = true)
    (value : wordValue? (String.ofList (first :: word)) = some v) : v.Reads := by
  intro steps offset after enough stops
  rw [display] at enough ⊢
  obtain ⟨steps, rfl⟩ := Nat.exists_eq_add_one.mpr (show 0 < steps by simp at enough; omega)
  rw [List.cons_append, readValue_word opens, ← List.cons_append,
    readWord_append letters value stops]
  exact ⟨_, rfl, rfl⟩

theorem reads_text (value : String) : (Value.text value).Reads := by
  intro steps offset after enough _
  rw [toList_display_text] at enough ⊢
  obtain ⟨steps, rfl⟩ := Nat.exists_eq_add_one.mpr (show 0 < steps by simp at enough; omega)
  have parts : value.toList.flatMap Text.quoteChar ++ ['"'] ++ after =
      value.toList.flatMap Text.quoteChar ++ '"' :: after := by simp
  have inner := (readQuoted_eq_ok_iff (show '"' ≠ '\\' by decide) offset).mpr
    ⟨_, parts, items_quote true value.toList⟩
  rw [List.cons_append, readValue_quoted steps offset (by decide)]
  exact readText_eq_ok_iff.mpr ⟨value.toList, inner, by rw [String.ofList_toList]⟩

theorem display_ends {v : Value} (numberless : v.Numberless) :
    ∃ first inside last, v.display.toList = first :: (inside ++ [last]) ∧ isBlank first = false ∧
      first ≠ ']' ∧ isBlank last = false ∧ last ≠ 't' := by
  cases numberless with
  | null => exact ⟨'n', ['u', 'l'], 'l', rfl, by decide⟩
  | bool value =>
    cases value with
    | false => exact ⟨'f', ['a', 'l', 's'], 'e', rfl, by decide⟩
    | true => exact ⟨'t', ['r', 'u'], 'e', rfl, by decide⟩
  | text value => exact ⟨'"', _, '"', toList_display_text value, by decide⟩
  | array all => exact ⟨'[', _, ']', toList_display_array _, by decide⟩

theorem stops_cons {c : Char} (other : isWordChar c = false) (rest : List Char) :
    Stops (c :: rest) :=
  List.takeWhile_cons_of_neg (by simp [other])

theorem readItems_listed {items : List Value} (numberless : ∀ item ∈ items, item.Numberless)
    (reads : ∀ item ∈ items, item.Reads) {lead : List Char} (blank : lead.all isBlank = true)
    {steps : Nat} (enough : 2 * (listed items).length < steps) (offset : Nat) (after : List Char) :
    ∃ stop, readItems steps ⟨offset, lead ++ (listed items ++ ']' :: after)⟩ = .ok (items, stop) ∧
      stop.rest = after := by
  induction items generalizing lead steps offset with
  | nil =>
    obtain ⟨steps, rfl⟩ := Nat.exists_eq_add_one.mpr (Nat.zero_lt_of_lt enough)
    have closes := @skipBlanks_append lead blank ']' (by decide) offset after
    rw [show listed [] = [] from rfl, List.nil_append]
    refine ⟨_, readItems_end (congrArg Cursor.rest closes), ?_⟩
    rw [closes]
    rfl
  | cons item rest ih =>
    obtain ⟨steps, rfl⟩ := Nat.exists_eq_add_one.mpr (Nat.zero_lt_of_lt enough)
    rw [List.forall_mem_cons] at numberless reads
    obtain ⟨first, inside, last, display, visible, opens, -⟩ := display_ends numberless.1
    have start (later : List Char) :
        Cursor.skipBlanks ⟨offset, lead ++ (item.display.toList ++ later)⟩ =
          ⟨offset + lead.length, item.display.toList ++ later⟩ := by
      rw [display]
      exact skipBlanks_append blank visible offset _
    have begins (later : List Char) :
        (Cursor.skipBlanks ⟨offset, lead ++ (item.display.toList ++ later)⟩).rest =
          first :: (inside ++ [last] ++ later) := by
      rw [start, display]
      rfl
    cases rest with
    | nil =>
      have only : listed [item] = item.display.toList := by simp [listed]
      rw [only] at enough ⊢
      obtain ⟨stop, read, left⟩ := reads.1 steps (offset + lead.length) (']' :: after) (by omega)
        (stops_cons (by decide) after)
      rw [← start] at read
      have closes : stop.skipBlanks.rest = ']' :: after := by
        rw [skipBlanks_rest, left, List.dropWhile_cons_of_neg (by decide)]
      refine ⟨_, readItems_last (begins _) opens read closes, ?_⟩
      rw [Cursor.advance, closes]
      rfl
    | cons second rest =>
      rw [listed_cons_cons] at enough ⊢
      rw [List.length_append, List.length_cons, List.length_cons] at enough
      rw [List.append_assoc, List.cons_append, List.cons_append]
      obtain ⟨stop, read, left⟩ := reads.1 steps (offset + lead.length)
        (',' :: ' ' :: (listed (second :: rest) ++ ']' :: after)) (by omega)
        (stops_cons (by decide) _)
      rw [← start] at read
      have comma : stop.skipBlanks.rest =
          ',' :: ' ' :: (listed (second :: rest) ++ ']' :: after) := by
        rw [skipBlanks_rest, left, List.dropWhile_cons_of_neg (by decide)]
      obtain ⟨final, others, ended⟩ := @ih numberless.2 reads.2 [' '] (by decide) steps (by omega)
        (stop.skipBlanks.offset + 1)
      refine ⟨final, readItems_more (begins _) opens read comma ?_, ended⟩
      rw [Cursor.advance, comma]
      exact others

theorem readValue_array {steps offset : Nat} {rest : List Char} {items : List Value} {stop : Cursor}
    (read : readItems steps ⟨offset + 1, rest⟩ = .ok (items, stop)) :
    readValue (steps + 1) ⟨offset, '[' :: rest⟩ = .ok (.array items, stop) := by
  rw [readValue, skipBlanks_of_visible (by decide)]
  dsimp only
  rw [if_neg (by decide), if_neg (by decide), if_pos rfl, Cursor.advance, List.drop_one,
    List.tail_cons, read]
  rfl

theorem reads_of_numberless {v : Value} (numberless : v.Numberless) : v.Reads := by
  induction numberless with
  | null => exact @reads_word _ 'n' ['u', 'l', 'l'] (by decide) rfl (by decide) rfl
  | bool value =>
    cases value with
    | false => exact @reads_word _ 'f' ['a', 'l', 's', 'e'] (by decide) rfl (by decide) rfl
    | true => exact @reads_word _ 't' ['r', 'u', 'e'] (by decide) rfl (by decide) rfl
  | text value => exact reads_text value
  | array all ih =>
    rename_i items
    intro steps offset after enough _
    rw [toList_display_array] at enough ⊢
    rw [List.length_cons, List.length_append, List.length_singleton] at enough
    obtain ⟨steps, rfl⟩ := Nat.exists_eq_add_one.mpr (show 0 < steps by omega)
    obtain ⟨stop, read, left⟩ := @readItems_listed items all ih [] rfl steps (by omega)
      (offset + 1) after
    rw [List.cons_append, List.append_assoc]
    exact ⟨stop, readValue_array read, left⟩

theorem evaluate_of_numberless {v : Value} (numberless : v.Numberless) :
    evaluate v.display = .ok v := by
  obtain ⟨first, inside, last, display, visible, -, visibleLast, unmarked⟩ :=
    display_ends numberless
  have whole : expression v.display.toList = v.display.toList := by
    rw [display]
    exact @expression_append [] inside [] first last rfl visible visibleLast unmarked (.inl rfl)
  obtain ⟨stop, read, ended⟩ := reads_of_numberless numberless (2 * v.display.toList.length) 0 []
    le_rfl rfl
  rw [List.append_nil] at read
  rw [evaluate, whole]
  dsimp only
  rw [read]
  exact if_pos (by rw [skipBlanks_rest, ended, List.dropWhile_nil])

/-- A value without numbers is the value of its text, so different ones have different texts. -/
theorem evaluate_display {v : Value} (numberless : v.Numberless) :
    evaluate v.display = .ok v ∧
      ∀ other : Value, other.Numberless → other.display = v.display → other = v := by
  have back := evaluate_of_numberless numberless
  refine ⟨back, ?_⟩
  intro other otherNumberless same
  have otherBack := evaluate_of_numberless otherNumberless
  rw [same, back] at otherBack
  exact (Except.ok.inj otherBack).symm

/-- Arrays in an array, with a string of a quote, a backslash, a line feed and a character that does
not show. -/
def nestedArray : Value :=
  .array [.array [], .null, .array [.text "\"\\\n\u200b", .bool true]]

theorem evaluate_display_nested : nestedArray.Numberless ∧
    evaluate "[[], null, [\"\\\"\\\\\\n\\u\x7b200b\x7d\", true]]" = .ok nestedArray := by
  have inner : ∀ item ∈ [Value.text "\"\\\n\u200b", .bool true], item.Numberless := by
    simp only [List.forall_mem_cons]
    exact ⟨.text _, .bool _, by simp⟩
  have outer : ∀ item ∈ [Value.array [], .null, .array [.text "\"\\\n\u200b", .bool true]],
      item.Numberless := by
    simp only [List.forall_mem_cons]
    exact ⟨.array (by simp), .null, .array inner, by simp⟩
  have numberless : nestedArray.Numberless := .array outer
  have display : nestedArray.display =
      "[[], null, [\"\\\"\\\\\\n\\u\x7b200b\x7d\", true]]" := by decide +kernel
  exact ⟨numberless, display ▸ (evaluate_display numberless).1⟩

end TypeLoom.Literal
