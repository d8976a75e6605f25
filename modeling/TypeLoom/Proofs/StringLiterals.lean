import Mathlib.Data.List.DropRight
import TypeLoom.Literal.Evaluate
import TypeLoom.Proofs.Operations

/-! String literals. A source text that begins with a quote denotes a string exactly if a sequence
of items and the same quote follow, and then nothing but blanks and a mark of constancy. Main
result: the items are those that one expects, except that the code in an escape may have a plus sign
in front of its digits. -/
namespace TypeLoom.Literal
open Text (isBlank)

def IsHex (text : List Char) : Prop := text ≠ [] ∧ ∀ c ∈ text, isHexDigit c = true

/-- The text stands for a code: hexadecimal digits, after a plus sign if `signs` are let in. -/
def Numeral (signs : Bool) (text : List Char) (code : Nat) : Prop :=
  ∃ digits, (text = digits ∨ signs = true ∧ text = '+' :: digits) ∧ IsHex digits ∧
    ofHexDigits digits = code

/-- Characters with an escape of one letter, the letter in front. -/
def letterEscapes : List (Char × Char) :=
  [('n', '\n'), ('t', '\t'), ('r', '\r'), ('0', '\x00'), ('b', '\x08'), ('f', '\x0c'),
    ('v', '\x0b'), ('\\', '\\'), ('\x27', '\x27'), ('"', '"'), ('\x60', '\x60'), ('$', '$'),
    ('/', '/')]

/-- What may follow a backslash, and the character that it stands for. -/
inductive Escape (signs : Bool) : List Char → Char → Prop
  | letter {mark c : Char} (listed : (mark, c) ∈ letterEscapes) : Escape signs [mark] c
  | byte {digits : List Char} {c : Char} (width : digits.length = 2)
      (code : Numeral signs digits c.toNat) : Escape signs ('x' :: digits) c
  | unit {digits : List Char} {c : Char} (width : digits.length = 4)
      (code : Numeral signs digits c.toNat) : Escape signs ('u' :: digits) c
  | braced {digits : List Char} {c : Char} (code : Numeral signs digits c.toNat) :
      Escape signs ('u' :: '\x7b' :: digits ++ ['\x7d']) c

/-- An item between quotes, and the character that it stands for. -/
inductive Item (signs : Bool) (quote : Char) : List Char → Char → Prop
  | plain {c : Char} (other : c ≠ quote) (single : c ≠ '\\') (inline : c ≠ '\n') :
      Item signs quote [c] c
  | escape {text : List Char} {c : Char} (escape : Escape signs text c) :
      Item signs quote ('\\' :: text) c

/-- Items one after the other, and the characters that they stand for. -/
inductive Items (signs : Bool) (quote : Char) : List Char → List Char → Prop
  | nil : Items signs quote [] []
  | cons {text rest : List Char} {c : Char} {chars : List Char} (item : Item signs quote text c)
      (items : Items signs quote rest chars) : Items signs quote (text ++ rest) (c :: chars)

/-- Signs matter only where there is one. -/
theorem Numeral.change {signs other : Bool} {text : List Char} {code : Nat}
    (numeral : Numeral signs text code) (plain : other = true ∨ '+' ∉ text) :
    Numeral other text code := by
  obtain ⟨digits, parts, hex⟩ := numeral
  obtain same | ⟨-, rfl⟩ := parts
  · exact ⟨digits, .inl same, hex⟩
  · exact ⟨digits, .inr ⟨plain.resolve_right (absurd List.mem_cons_self), rfl⟩, hex⟩

theorem Escape.change {signs other : Bool} {text : List Char} {c : Char}
    (escape : Escape signs text c) (plain : other = true ∨ '+' ∉ text) : Escape other text c := by
  have within {part : List Char} (sub : part ⊆ text) : other = true ∨ '+' ∉ part :=
    plain.imp_right fun absent member => absent (sub member)
  cases escape with
  | letter listed => exact .letter listed
  | byte width code => exact .byte width (code.change (within (by simp)))
  | unit width code => exact .unit width (code.change (within (by simp)))
  | braced code => exact .braced (code.change (within (by intro c member; simp [member])))

theorem Items.change {signs other : Bool} {quote : Char} {text chars : List Char}
    (items : Items signs quote text chars) (plain : other = true ∨ '+' ∉ text) :
    Items other quote text chars := by
  induction items with
  | nil => exact .nil
  | cons item items ih =>
    simp only [List.mem_append, not_or] at plain
    refine .cons ?_ (ih (plain.imp_right And.right))
    cases item with
    | plain other single inline => exact .plain other single inline
    | escape escape =>
      exact .escape (escape.change (plain.imp_right fun absent member =>
        absent.1 (List.mem_cons_of_mem _ member)))

theorem toNat_ofNat {code : Nat} (valid : code.isValidChar) : (Char.ofNat code).toNat = code := by
  rw [Char.ofNat, dif_pos valid]
  rfl

theorem charOfCode_iff (digits : List Char) (c : Char) :
    (if digits ≠ [] ∧ digits.all isHexDigit ∧ (ofHexDigits digits).isValidChar then
      some (Char.ofNat (ofHexDigits digits)) else none) = some c ↔
      IsHex digits ∧ ofHexDigits digits = c.toNat := by
  rw [IsHex, Option.ite_none_right_eq_some, Option.some.injEq, List.all_eq_true]
  constructor
  · rintro ⟨⟨some, hex, valid⟩, rfl⟩
    exact ⟨⟨some, hex⟩, (toNat_ofNat valid).symm⟩
  · rintro ⟨⟨some, hex⟩, code⟩
    rw [code, Char.ofNat_toNat]
    exact ⟨⟨some, hex, c.valid⟩, rfl⟩

theorem charOfHex?_eq_some_iff {text : List Char} {c : Char} :
    charOfHex? text = some c ↔ Numeral true text c.toNat := by
  have sign : isHexDigit '+' = false := by decide
  unfold charOfHex?
  extract_lets digits
  rw [charOfCode_iff]
  by_cases signed : ∃ rest, text = '+' :: rest
  · obtain ⟨rest, rfl⟩ := signed
    constructor
    · intro code
      exact ⟨rest, .inr ⟨rfl, rfl⟩, code⟩
    · rintro ⟨own, rfl | ⟨-, same⟩, hex, code⟩
      · rw [hex.2 '+' List.mem_cons_self] at sign
        cases sign
      · obtain rfl := (List.cons.inj same).2
        exact ⟨hex, code⟩
  · have whole : digits = text := by
      dsimp only [digits]
      split
      · exact absurd ⟨_, rfl⟩ signed
      · rfl
    rw [whole]
    constructor
    · intro code
      exact ⟨text, .inl rfl, code⟩
    · rintro ⟨own, rfl | ⟨-, same⟩, hex, code⟩
      · exact ⟨hex, code⟩
      · exact absurd ⟨own, same⟩ signed

theorem readHexEscape_eq_ok_iff {blame : Char} {width : Nat} {text after : List Char} {c : Char} :
    readHexEscape blame width text = .ok (c, after) ↔
      ∃ digits, text = digits ++ after ∧ digits.length = width ∧ Numeral true digits c.toNat := by
  rw [readHexEscape]
  constructor
  · intro read
    split_ifs at read with short
    split at read
    · rename_i found code
      cases read
      exact ⟨text.take width, (List.take_append_drop width text).symm,
        List.length_take_of_le (Nat.le_of_not_lt short), charOfHex?_eq_some_iff.mp code⟩
    · cases read
  · rintro ⟨digits, rfl, rfl, code⟩
    rw [if_neg (by simp), List.take_left, List.drop_left, charOfHex?_eq_some_iff.mpr code]

theorem letterEscape?_eq_some_iff {mark c : Char} :
    letterEscape? mark = some c ↔ (mark, c) ∈ letterEscapes := by
  unfold letterEscape?
  split <;> simp_all [letterEscapes, eq_comm]

theorem not_mem_of_numeral {signs : Bool} {text : List Char} {code : Nat} {c : Char}
    (numeral : Numeral signs text code) (other : isHexDigit c = false) (plus : c ≠ '+') :
    c ∉ text := by
  obtain ⟨digits, parts, hex, -⟩ := numeral
  have absent : c ∉ digits := by
    intro member
    rw [hex.2 c member] at other
    cases other
  obtain rfl | ⟨-, rfl⟩ := parts
  · exact absent
  · exact List.not_mem_cons_of_ne_of_not_mem plus absent

theorem readEscape_of_escape (start : Nat) {text : List Char} {c : Char}
    (escape : Escape true text c)
    (after : List Char) : readEscape start (text ++ after) = .ok (c, after) := by
  cases escape with
  | letter listed =>
    rename_i mark
    have found := letterEscape?_eq_some_iff.mpr listed
    have notHex : mark ≠ 'x' := by
      rintro rfl
      cases found
    have notCode : mark ≠ 'u' := by
      rintro rfl
      cases found
    rw [List.singleton_append, readEscape, found]
    · exact notHex
    · exact fun _ same => absurd same notCode
    · exact notCode
  | byte width code => exact readHexEscape_eq_ok_iff.mpr ⟨_, rfl, width, code⟩
  | unit width code =>
    rename_i digits
    have unbraced : '\x7b' ∉ digits := not_mem_of_numeral code (by decide) (by decide)
    rw [List.cons_append, readEscape]
    · exact readHexEscape_eq_ok_iff.mpr ⟨_, rfl, width, code⟩
    · intro rest same
      cases digits with
      | nil => cases width
      | cons d digits => exact unbraced ((List.cons.inj same).1 ▸ List.mem_cons_self)
  | braced code =>
    rename_i digits
    have inside : ∀ d ∈ digits, decide (d ≠ '\x7d') = true := by
      intro d member
      exact decide_eq_true (ne_of_mem_of_not_mem member
        (not_mem_of_numeral code (by decide) (by decide)))
    simp only [List.cons_append, List.append_assoc, List.nil_append]
    rw [readEscape, List.takeWhile_append_of_pos inside, List.dropWhile_append_of_pos inside,
      List.takeWhile_cons_of_neg (by decide), List.dropWhile_cons_of_neg (by decide),
      List.append_nil, charOfHex?_eq_some_iff.mpr code]

theorem escape_of_readEscape {start : Nat} {text after : List Char} {c : Char}
    (read : readEscape start text = .ok (c, after)) :
    ∃ spelled, text = spelled ++ after ∧ Escape true spelled c := by
  unfold readEscape at read
  split at read
  · cases read
  · obtain ⟨digits, rfl, width, code⟩ := readHexEscape_eq_ok_iff.mp read
    exact ⟨'x' :: digits, rfl, .byte width code⟩
  · rename_i rest
    extract_lets code at read
    split at read
    · rename_i brace later escaped left found
      cases read
      have closes := List.head?_dropWhile_not (fun d => decide (d ≠ '\x7d')) rest
      rw [left] at closes
      obtain rfl : brace = '\x7d' := by simpa using closes
      have whole : rest = code ++ '\x7d' :: after := by
        rw [← left]
        exact List.takeWhile_append_dropWhile.symm
      refine ⟨'u' :: '\x7b' :: code ++ ['\x7d'], ?_, .braced (charOfHex?_eq_some_iff.mp found)⟩
      simp [← whole]
    · cases read
  · obtain ⟨digits, rfl, width, code⟩ := readHexEscape_eq_ok_iff.mp read
    exact ⟨'u' :: digits, rfl, .unit width code⟩
  · rename_i mark rest _ _ _
    split at read
    · rename_i escaped found
      cases read
      exact ⟨[mark], rfl, .letter (letterEscape?_eq_some_iff.mp found)⟩
    · cases read

theorem readQuoted_of_items {quote : Char} (single : quote ≠ '\\') (start : Nat)
    {body chars : List Char} (items : Items true quote body chars) (after : List Char) {size : Nat}
    (fits : body.length < size) :
    readQuoted quote start size (body ++ quote :: after) = .ok (chars, after) := by
  induction items generalizing size with
  | nil =>
    obtain ⟨size, rfl⟩ := Nat.exists_eq_add_one.mpr fits
    rw [List.nil_append, readQuoted, if_pos rfl]
  | cons item items ih =>
    rename_i text rest c chars
    obtain ⟨size, rfl⟩ := Nat.exists_eq_add_one.mpr (Nat.zero_lt_of_lt fits)
    rw [List.length_append] at fits
    rw [List.append_assoc]
    cases item with
    | plain other single inline =>
      rw [List.singleton_append, readQuoted, if_neg other, if_neg single, if_neg inline,
        ih (by simp at fits; omega)]
      rfl
    | escape escape =>
      rw [List.cons_append, readQuoted, if_neg single.symm, if_pos rfl,
        readEscape_of_escape start escape]
      simp only [bind, Except.bind]
      rw [ih (by simp at fits; omega)]

theorem items_of_readQuoted {quote : Char} {start size : Nat} {text chars after : List Char}
    (read : readQuoted quote start size text = .ok (chars, after)) :
    ∃ body, text = body ++ quote :: after ∧ Items true quote body chars := by
  induction size generalizing text chars with
  | zero => cases read
  | succ size ih =>
    cases text with
    | nil => cases read
    | cons c rest =>
      rw [readQuoted] at read
      split_ifs at read with closes escapes breaks
      · cases read
        exact ⟨[], by rw [closes, List.nil_append], .nil⟩
      · obtain ⟨⟨escaped, later⟩, first, inner⟩ := Graph.ok_of_bind read
        obtain ⟨⟨others, stop⟩, tail, same⟩ := Graph.ok_of_bind inner
        cases same
        obtain ⟨spelled, rfl, escape⟩ := escape_of_readEscape first
        obtain ⟨body, rfl, items⟩ := ih tail
        refine ⟨('\\' :: spelled) ++ body, ?_, .cons (.escape escape) items⟩
        rw [escapes, List.append_assoc, List.cons_append]
      · obtain ⟨⟨others, stop⟩, tail, same⟩ := Graph.ok_of_bind read
        cases same
        obtain ⟨body, rfl, items⟩ := ih tail
        exact ⟨[c] ++ body, rfl, .cons (.plain closes escapes breaks) items⟩

theorem readQuoted_eq_ok_iff {quote : Char} (single : quote ≠ '\\') (start : Nat)
    {text chars after : List Char} : readQuoted quote start text.length text = .ok (chars, after) ↔
      ∃ body, text = body ++ quote :: after ∧ Items true quote body chars := by
  constructor
  · exact items_of_readQuoted
  · rintro ⟨body, rfl, items⟩
    exact readQuoted_of_items single start items after (by simp)

/-- What may stand after an expression: blanks, and a mark of constancy among them. -/
def Trailer (text : List Char) : Prop :=
  text.all isBlank = true ∨ ∃ before after, before.all isBlank = true ∧ after.all isBlank = true ∧
    text = before ++ "as const".toList ++ after

theorem Trailer.after_blanks {blanks text : List Char} (blank : blanks.all isBlank = true)
    (trailer : Trailer text) : Trailer (blanks ++ text) := by
  obtain rest | ⟨before, after, blankBefore, blankAfter, rfl⟩ := trailer
  · exact .inl (by rw [List.all_append, blank, rest, Bool.and_self])
  · refine .inr ⟨blanks ++ before, after, ?_, blankAfter, by simp only [List.append_assoc]⟩
    rw [List.all_append, blank, blankBefore, Bool.and_self]

theorem trimEnd_append_blanks {blanks : List Char} (blank : blanks.all isBlank = true)
    (text : List Char) : Text.trimEnd (text ++ blanks) = Text.trimEnd text := by
  rw [Text.trimEnd, Text.trimEnd, List.reverse_append, List.dropWhile_append_of_pos]
  simpa using blank

theorem trimEnd_concat {c : Char} (visible : isBlank c = false) (text : List Char) :
    Text.trimEnd (text ++ [c]) = text ++ [c] := by
  rw [Text.trimEnd, List.reverse_append, List.reverse_singleton, List.singleton_append,
    List.dropWhile_cons_of_neg (by simp [visible])]
  simp

theorem exists_append_trimEnd (text : List Char) :
    ∃ blanks, blanks.all isBlank = true ∧ text = Text.trimEnd text ++ blanks := by
  refine ⟨(text.reverse.takeWhile isBlank).reverse, by simp, ?_⟩
  rw [Text.trimEnd, ← List.reverse_append, List.takeWhile_append_dropWhile, List.reverse_reverse]

theorem trimEnd_cons {c : Char} (visible : isBlank c = false) (text : List Char) :
    Text.trimEnd (c :: text) = c :: Text.trimEnd text := by
  have kept : ∀ back : List Char,
      (back ++ [c]).dropWhile isBlank = back.dropWhile isBlank ++ [c] := by
    intro back
    rw [List.dropWhile_append]
    split_ifs with all
    · rw [List.isEmpty_iff.mp all, List.dropWhile_cons_of_neg (by simp [visible]), List.nil_append]
    · rfl
  rw [Text.trimEnd, Text.trimEnd, List.reverse_cons, kept, List.reverse_append]
  rfl

theorem trim_of_head {lead : List Char} {c : Char} (blank : lead.all isBlank = true)
    (visible : isBlank c = false) (rest : List Char) :
    Text.trim (lead ++ c :: rest) = c :: Text.trimEnd rest := by
  rw [Text.trim, Text.trimStart, List.dropWhile_append_of_pos (List.all_eq_true.mp blank),
    List.dropWhile_cons_of_neg (by simp [visible]), trimEnd_cons visible]

theorem expression_of_mark {source text : List Char}
    (marked : Text.trim source = text ++ "as const".toList) :
    expression source = Text.trimEnd text := by
  rw [expression, marked, if_pos (List.isSuffixOf_iff_suffix.mpr (List.suffix_append _ _)),
    List.length_append, Nat.add_sub_cancel, List.take_left]

theorem expression_of_unmarked {source : List Char}
    (unmarked : ¬ "as const".toList <:+ Text.trim source) :
    expression source = Text.trim source := by
  rw [expression, if_neg (by rwa [List.isSuffixOf_iff_suffix])]

theorem exists_expression {lead rest : List Char} {c : Char} (blank : lead.all isBlank = true)
    (visible : isBlank c = false) (other : c ≠ 'a') :
    ∃ inside tail, expression (lead ++ c :: rest) = c :: inside ∧ rest = inside ++ tail ∧
      Trailer tail := by
  have trimmed := trim_of_head blank visible rest
  obtain ⟨after, blankAfter, whole⟩ := exists_append_trimEnd rest
  by_cases marked : "as const".toList <:+ Text.trimEnd rest
  · obtain ⟨text, marked⟩ := marked
    obtain ⟨before, blankBefore, parts⟩ := exists_append_trimEnd text
    refine ⟨Text.trimEnd text, before ++ "as const".toList ++ after, ?_, ?_,
      .inr ⟨before, after, blankBefore, blankAfter, rfl⟩⟩
    · rw [← marked, ← List.cons_append] at trimmed
      rw [expression_of_mark trimmed, trimEnd_cons visible]
    · rw [← List.append_assoc, ← List.append_assoc, ← parts, marked]
      exact whole
  · refine ⟨Text.trimEnd rest, after, ?_, whole, .inl blankAfter⟩
    rw [← trimmed]
    apply expression_of_unmarked
    rw [trimmed, List.suffix_cons_iff]
    rintro (same | suffix)
    · exact other (List.cons.inj same).1.symm
    · exact marked suffix

theorem expression_append {lead inside tail : List Char} {c last : Char}
    (blank : lead.all isBlank = true) (visible : isBlank c = false)
    (visibleLast : isBlank last = false)
    (unmarked : last ≠ 't') (trailer : Trailer tail) :
    expression (lead ++ c :: (inside ++ last :: tail)) = c :: (inside ++ [last]) := by
  have mark : "as const".toList = "as cons".toList ++ ['t'] := rfl
  have trimmed := trim_of_head blank visible (inside ++ last :: tail)
  obtain blankTail | ⟨before, after, blankBefore, blankAfter, rfl⟩ := trailer
  · have parts : inside ++ last :: tail = (inside ++ [last]) ++ tail := by simp
    have ends : Text.trimEnd (inside ++ last :: tail) = inside ++ [last] := by
      rw [parts, trimEnd_append_blanks blankTail, trimEnd_concat visibleLast]
    rw [expression_of_unmarked, trimmed, ends]
    rintro ⟨text, same⟩
    rw [trimmed, ends, mark, ← List.append_assoc, ← List.cons_append] at same
    exact unmarked (List.append_inj_right' same rfl |> List.cons.inj).1.symm
  · have parts : inside ++ last :: (before ++ "as const".toList ++ after) =
        ((inside ++ [last] ++ before) ++ "as const".toList) ++ after := by simp
    have ends : Text.trimEnd (inside ++ last :: (before ++ "as const".toList ++ after)) =
        (inside ++ [last] ++ before) ++ "as const".toList := by
      rw [parts, trimEnd_append_blanks blankAfter, mark, ← List.append_assoc,
        trimEnd_concat (by decide)]
    rw [ends] at trimmed
    rw [@expression_of_mark _ (c :: (inside ++ [last] ++ before)) trimmed, trimEnd_cons visible,
      trimEnd_append_blanks blankBefore, trimEnd_concat visibleLast]

/-- The characters that open a string, and close it. -/
def quotes : List Char := ['\x27', '"']

theorem skipBlanks_rest (c : Cursor) : c.skipBlanks.rest = c.rest.dropWhile isBlank := by
  have parts := @List.takeWhile_append_dropWhile _ isBlank c.rest
  calc c.rest.drop (c.rest.takeWhile isBlank).length
      = (c.rest.takeWhile isBlank ++ c.rest.dropWhile isBlank).drop
          (c.rest.takeWhile isBlank).length := by rw [parts]
    _ = c.rest.dropWhile isBlank := List.drop_left

theorem skipBlanks_append {lead : List Char} (blank : lead.all isBlank = true) {first : Char}
    (visible : isBlank first = false) (offset : Nat) (rest : List Char) :
    Cursor.skipBlanks ⟨offset, lead ++ first :: rest⟩ = ⟨offset + lead.length, first :: rest⟩ := by
  rw [Cursor.skipBlanks, List.takeWhile_append_of_pos (List.all_eq_true.mp blank),
    List.takeWhile_cons_of_neg (by simp [visible]), List.append_nil, Cursor.advance, List.drop_left]

theorem skipBlanks_of_visible {first : Char} (visible : isBlank first = false) (offset : Nat)
    (rest : List Char) : Cursor.skipBlanks ⟨offset, first :: rest⟩ = ⟨offset, first :: rest⟩ :=
  @skipBlanks_append [] rfl first visible offset rest

theorem readValue_quoted (steps offset : Nat) {quote : Char} (isQuote : quote ∈ quotes)
    (inside : List Char) : readValue (steps + 1) ⟨offset, quote :: inside⟩ =
      readText ⟨offset, quote :: inside⟩ (readQuoted quote) := by
  have visible : quotes.all (fun q => !isBlank q) = true := by decide
  rw [readValue, skipBlanks_of_visible (by simpa using List.all_eq_true.mp visible quote isQuote)]
  dsimp only
  rw [if_pos (by simpa [quotes] using isQuote)]

theorem readText_eq_ok_iff {offset : Nat} {opening : Char} {inside : List Char} {v : Value}
    {rest : List Char}
    {body : (start size : Nat) → List Char → Except Error (List Char × List Char)} :
    (∃ after, readText ⟨offset, opening :: inside⟩ body = .ok (v, after) ∧ after.rest = rest) ↔
      ∃ chars, body offset inside.length inside = .ok (chars, rest) ∧
        v = .text (String.ofList chars) := by
  constructor
  · rintro ⟨after, read, rfl⟩
    obtain ⟨⟨chars, later⟩, inner, same⟩ := Graph.ok_of_bind read
    cases same
    exact ⟨chars, inner, rfl⟩
  · rintro ⟨chars, read, rfl⟩
    refine ⟨⟨offset + ((opening :: inside).length - rest.length), rest⟩, ?_, rfl⟩
    rw [readText, List.drop_one, List.tail_cons, read]
    rfl

theorem evaluate_expression_iff {source : String} {quote : Char} (isQuote : quote ∈ quotes)
    {inside : List Char} (found : expression source.toList = quote :: inside) {v : Value} :
    evaluate source = .ok v ↔ ∃ body chars after, inside = body ++ quote :: after ∧
      Items true quote body chars ∧ after.all isBlank = true ∧ v = .text (String.ofList chars) := by
  have single : quote ≠ '\\' := by
    rintro rfl
    exact absurd isQuote (by decide)
  rw [evaluate, found]
  dsimp only
  rw [List.length_cons, Nat.mul_add_one, readValue_quoted _ _ isQuote]
  constructor
  · intro done
    obtain ⟨⟨value, after⟩, read, done⟩ := Graph.ok_of_bind done
    obtain ⟨chars, inner, rfl⟩ := readText_eq_ok_iff.mp ⟨after, read, rfl⟩
    obtain ⟨body, parts, items⟩ := items_of_readQuoted inner
    dsimp only at done
    split_ifs at done with ended
    cases done
    rw [skipBlanks_rest, List.dropWhile_eq_nil_iff, ← List.all_eq_true] at ended
    exact ⟨body, chars, after.rest, parts, items, ended, rfl⟩
  · rintro ⟨body, chars, after, parts, items, blank, rfl⟩
    have inner := (readQuoted_eq_ok_iff single 0).mpr ⟨body, parts, items⟩
    obtain ⟨stop, read, rfl⟩ := readText_eq_ok_iff.mpr ⟨chars, inner, rfl⟩
    have ended : stop.skipBlanks.rest = [] := by
      rwa [skipBlanks_rest, List.dropWhile_eq_nil_iff, ← List.all_eq_true]
    rw [read]
    exact if_pos ended

/-- What follows an opening quote makes a literal of it: items up to the same quote, and at most
blanks and a mark after it. -/
def Completes (signs : Bool) (quote : Char) (rest : List Char) (v : Value) : Prop :=
  ∃ body chars tail, rest = body ++ quote :: tail ∧ Items signs quote body chars ∧ Trailer tail ∧
    v = .text (String.ofList chars)

theorem Completes.change {signs other : Bool} {quote : Char} {rest : List Char} {v : Value}
    (completes : Completes signs quote rest v) (plain : other = true ∨ '+' ∉ rest) :
    Completes other quote rest v := by
  obtain ⟨body, chars, tail, rfl, items, trailer⟩ := completes
  have within : other = true ∨ '+' ∉ body :=
    plain.imp_right fun absent member => absent (List.mem_append_left _ member)
  exact ⟨body, chars, tail, rfl, items.change within, trailer⟩

theorem evaluate_quoted_iff {lead : List Char} (blank : lead.all isBlank = true) {quote : Char}
    (isQuote : quote ∈ quotes) (rest : List Char) (v : Value) :
    evaluate (String.ofList (lead ++ quote :: rest)) = .ok v ↔ Completes true quote rest v := by
  have apart : quotes.all (fun q => !isBlank q && q != 'a' && q != 't') = true := by decide
  obtain ⟨⟨visible, begins⟩, ends⟩ : (isBlank quote = false ∧ quote ≠ 'a') ∧ quote ≠ 't' := by
    simpa using List.all_eq_true.mp apart quote isQuote
  constructor
  · intro done
    obtain ⟨inside, tail, found, rfl, trailer⟩ :=
      @exists_expression lead rest _ blank visible begins
    rw [evaluate_expression_iff isQuote (by rw [String.toList_ofList, found])] at done
    obtain ⟨body, chars, after, rfl, items, blankAfter, rfl⟩ := done
    refine ⟨body, chars, after ++ tail, ?_, items, trailer.after_blanks blankAfter, rfl⟩
    rw [List.append_assoc, List.cons_append]
  · rintro ⟨body, chars, tail, rfl, items, trailer, rfl⟩
    have found := @expression_append lead body tail quote quote blank visible visible ends trailer
    rw [evaluate_expression_iff isQuote (by rw [String.toList_ofList, found])]
    exact ⟨body, chars, [], rfl, items, rfl, rfl⟩

/-- A source text that begins with a quote has a value exactly if it is a string literal, in which
the code of an escape may have a sign, and the value is the string of its characters. So every
literal without signs has its value, and where there is no plus sign at all no other text has one.
-/
theorem evaluate_string_iff {lead : List Char} (blank : lead.all isBlank = true) {quote : Char}
    (isQuote : quote ∈ quotes) (rest : List Char) (v : Value) :
    (evaluate (String.ofList (lead ++ quote :: rest)) = .ok v ↔ Completes true quote rest v) ∧
      (Completes false quote rest v → evaluate (String.ofList (lead ++ quote :: rest)) = .ok v) ∧
      ('+' ∉ rest → evaluate (String.ofList (lead ++ quote :: rest)) = .ok v →
        Completes false quote rest v) := by
  have accepted := evaluate_quoted_iff blank isQuote rest v
  refine ⟨accepted, ?_, ?_⟩
  · intro completes
    exact accepted.mpr (completes.change (.inl rfl))
  · intro unsigned done
    exact (accepted.mp done).change (.inr unsigned)

/-- Four kinds of items, and a mark after them. -/
theorem evaluate_string_iff_spellings :
    [' '].all isBlank = true ∧ '\x27' ∈ quotes ∧
      evaluate " '\\nA\\x42\\u\x7b263a\x7d' as const " = .ok (.text "\nAB\u263a") := by
  have items : Items false '\x27' "\\nA\\x42\\u\x7b263a\x7d".toList "\nAB\u263a".toList :=
    .cons (.escape (.letter (by decide)))
      (.cons (.plain (by decide) (by decide) (by decide))
        (.cons (.escape (.byte rfl
            ⟨['4', '2'], .inl rfl, ⟨by decide, List.all_eq_true.mp rfl⟩, by decide⟩))
          (.cons (.escape (.braced
            ⟨['2', '6', '3', 'a'], .inl rfl, ⟨by decide, List.all_eq_true.mp rfl⟩, by decide⟩))
            .nil)))
  have trailer : Trailer " as const ".toList := .inr ⟨[' '], [' '], rfl, rfl, rfl⟩
  have blank : [' '].all isBlank = true := rfl
  have isQuote : '\x27' ∈ quotes := by decide
  exact ⟨blank, isQuote, (evaluate_string_iff blank isQuote
    "\\nA\\x42\\u\x7b263a\x7d' as const ".toList _).2.1 ⟨_, _, _, rfl, items, trailer, rfl⟩⟩

/-- A sign is let in where a digit should be. -/
theorem evaluate_signed_escape :
    evaluate "\"\\x+4\"" = .ok (.text "\x04") ∧
      ¬ Completes false '"' "\\x+4\"".toList (.text "\x04") := by
  constructor
  · rfl
  · rintro ⟨body, chars, tail, parts, items, -⟩
    rw [show "\\x+4\"".toList = ['\\', 'x', '+', '4', '"'] from rfl] at parts
    cases items with
    | nil => simp at parts
    | cons item items =>
      cases item with
      | plain _ single _ => exact single (List.cons.inj parts).1.symm
      | escape escape =>
        have inner := (List.cons.inj parts).2
        cases escape with
        | letter listed =>
          rw [← (List.cons.inj inner).1, ← letterEscape?_eq_some_iff] at listed
          cases listed
        | byte width code =>
          rename_i digits
          have signed := (List.cons.inj inner).2
          cases digits with
          | nil => cases width
          | cons d digits =>
            obtain ⟨own, same | ⟨impossible, -⟩, hex, -⟩ := code
            · have hexSign : isHexDigit '+' = true := by
                rw [(List.cons.inj signed).1]
                exact hex.2 d (same ▸ List.mem_cons_self)
              exact absurd hexSign (by decide)
            · cases impossible
        | unit width code => exact absurd (List.cons.inj inner).1 (by decide)
        | braced code => exact absurd (List.cons.inj inner).1 (by decide)

end TypeLoom.Literal
