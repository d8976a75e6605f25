import Mathlib.Algebra.Ring.Parity
import TypeLoom.Proofs.LiteralDisplay
import TypeLoom.Proofs.SourceLines

/-! Escaped texts read back. Escapes differ in length and stand beside raw characters, so the reader
must end each one where the writer did. Main result: the text between the quotes of a literal has
quotes only behind an escaping backslash, and reading its escapes gives the text that was written.
-/
namespace TypeLoom.Code

/-- Escapes of one letter, each with the character that it stands for. -/
def escapeLetters : List (Char × Char) :=
  [('\\', '\\'), ('"', '"'), ('n', '\n'), ('r', '\r'), ('t', '\t'), ('0', '\x00')]

/-- The character whose code is written in hexadecimal digits. -/
def charOfUnit? (digits : List Char) : Option Char :=
  if digits ≠ [] ∧ digits.all Literal.isHexDigit ∧ (Literal.ofHexDigits digits).isValidChar then
    some (Char.ofNat (Literal.ofHexDigits digits))
  else none

/-- The characters that a text between quotes stands for. A code has exactly four digits, so that
digits behind it are characters of their own. There is no result if an escape is unknown or cut
short. -/
def unescape : List Char → Option (List Char)
  | [] => some []
  | '\\' :: 'u' :: a :: b :: c :: d :: rest =>
    (charOfUnit? [a, b, c, d]).bind fun code => (unescape rest).map (code :: ·)
  | '\\' :: mark :: rest =>
    (escapeLetters.lookup mark).bind fun c => (unescape rest).map (c :: ·)
  | c :: rest => if c = '\\' then none else (unescape rest).map (c :: ·)

def backslashes (text : List Char) : Nat :=
  (text.reverse.takeWhile (· == '\\')).length

/-- Backslashes in front of a quote escape one another in pairs, so that the last one escapes the
quote if their number is odd. -/
def QuotesEscaped (text : List Char) : Prop :=
  ∀ before after, text = before ++ '"' :: after → Odd (backslashes before)

/-- How a character may be spelled between quotes. -/
inductive Spelling : List Char → Char → Prop
  | plain {c : Char} (quote : c ≠ '"') (backslash : c ≠ '\\') : Spelling [c] c
  | letter {mark c : Char} (listed : (mark, c) ∈ escapeLetters) : Spelling ['\\', mark] c
  | unit {digits : List Char} {c : Char} (width : digits.length = 4)
      (code : Literal.Numeral false digits c.toNat) : Spelling ('\\' :: 'u' :: digits) c

theorem ofHexDigits_zeros (count : Nat) (digits : List Char) :
    Literal.ofHexDigits (List.replicate count '0' ++ digits) = Literal.ofHexDigits digits := by
  induction count with
  | zero => rfl
  | succ count ih => exact ih

theorem numeral_fourHexDigits (n : Nat) : Literal.Numeral false (fourHexDigits n) n := by
  obtain ⟨digits, same | ⟨signed, -⟩, hex, value⟩ := Literal.numeral_hexDigits false n
  · subst same
    refine ⟨fourHexDigits n, .inl rfl, ⟨?_, ?_⟩, ?_⟩
    · exact List.append_ne_nil_of_right_ne_nil _ hex.1
    · intro d member
      rcases List.mem_append.mp member with zero | digit
      · rw [List.eq_of_mem_replicate zero]
        decide
      · exact hex.2 d digit
    · rw [fourHexDigits, ofHexDigits_zeros, value]
  · cases signed

theorem length_fourHexDigits {n : Nat} (small : n < 0x10000) : (fourHexDigits n).length = 4 := by
  have few : (Text.hexDigits n).length ≤ 4 :=
    (Nat.length_toDigits_le_iff (by decide) (by decide)).mpr small
  rw [fourHexDigits, List.length_append, List.length_replicate]
  omega

theorem toNat_lt_of_isControl {c : Char} (control : isControl c = true) : c.toNat < 0xA0 := by
  simp only [isControl, Bool.or_eq_true, Bool.and_eq_true, decide_eq_true_eq] at control
  omega

theorem spelling_escapeChar (c : Char) : Spelling (escapeChar c) c := by
  rw [escapeChar]
  split_ifs with backslash quote feed back tab null control
  · exact .letter (by rw [backslash]; decide)
  · exact .letter (by rw [quote]; decide)
  · exact .letter (by rw [feed]; decide)
  · exact .letter (by rw [back]; decide)
  · exact .letter (by rw [tab]; decide)
  · exact .letter (by rw [null]; decide)
  · have small := toNat_lt_of_isControl control
    exact .unit (length_fourHexDigits (by omega)) (numeral_fourHexDigits c.toNat)
  · exact .plain quote backslash

theorem charOfUnit?_of_numeral {digits : List Char} {c : Char}
    (code : Literal.Numeral false digits c.toNat) : charOfUnit? digits = some c := by
  obtain ⟨own, rfl | ⟨signed, -⟩, hex, value⟩ := code
  · exact (Literal.charOfCode_iff digits c).mpr ⟨hex, value⟩
  · cases signed

theorem lookup_escapeLetters {mark c : Char} (listed : (mark, c) ∈ escapeLetters) :
    escapeLetters.lookup mark = some c ∧ mark ≠ 'u' := by
  have each : escapeLetters.all fun entry =>
      escapeLetters.lookup entry.1 == some entry.2 && entry.1 != 'u' := by decide
  simpa using List.all_eq_true.mp each (mark, c) listed

theorem unescape_spelling {spelling : List Char} {c : Char} (spelled : Spelling spelling c)
    (rest : List Char) : unescape (spelling ++ rest) = (unescape rest).map (c :: ·) := by
  cases spelled with
  | plain quote backslash =>
    rw [List.singleton_append, unescape, if_neg backslash]
    · exact fun _ _ _ _ _ same => absurd same backslash
    · exact fun _ _ same => absurd same backslash
  | letter listed =>
    obtain ⟨found, other⟩ := lookup_escapeLetters listed
    rw [List.cons_append, List.singleton_append, unescape, found, Option.bind_some]
    exact fun _ _ _ _ _ same => absurd same other
  | unit width code =>
    rename_i digits
    obtain ⟨p, q, r, s, rfl⟩ := List.length_eq_four.mp width
    simp only [List.cons_append, List.nil_append]
    rw [unescape, charOfUnit?_of_numeral code, Option.bind_some]

theorem unescape_escapeChars (text : List Char) : unescape (escapeChars text) = some text := by
  induction text with
  | nil => rfl
  | cons c text ih =>
    rw [escapeChars, List.flatMap_cons, ← escapeChars, unescape_spelling (spelling_escapeChar c),
      ih, Option.map_some]

theorem backslashes_append (front back : List Char) : backslashes (front ++ back) =
    if backslashes back = back.length then backslashes front + backslashes back
    else backslashes back := by
  rw [backslashes, List.reverse_append, List.takeWhile_append, List.length_reverse]
  split_ifs with all other other
  · rw [List.length_append, List.length_reverse, backslashes, backslashes, all, Nat.add_comm]
  · exact absurd all other
  · exact absurd other all
  · rfl

theorem backslashes_concat {c : Char} (other : c ≠ '\\') (text : List Char) :
    backslashes (text ++ [c]) = 0 := by
  simp [backslashes, other]

theorem even_backslashes_spelling {spelling : List Char} {c : Char}
    (spelled : Spelling spelling c) : Even (backslashes spelling) := by
  cases spelled with
  | plain quote backslash => simp [backslashes, backslash]
  | letter listed =>
    have each : escapeLetters.all fun entry =>
        decide (backslashes ['\\', entry.1] % 2 = 0) := by decide
    exact Nat.even_iff.mpr (by simpa using List.all_eq_true.mp each _ listed)
  | unit width code =>
    rename_i digits
    obtain ⟨front, last, rfl⟩ : ∃ front last, digits = front ++ [last] :=
      List.eq_nil_or_concat' digits |>.resolve_left (by rintro rfl; cases width)
    have other : last ≠ '\\' := by
      rintro rfl
      exact Literal.not_mem_of_numeral code (c := '\\') (by decide) (by decide) (by simp)
    rw [← List.cons_append, ← List.cons_append, backslashes_concat other]
    exact Even.zero

theorem eq_of_quote_in_spelling {before after : List Char} {c : Char}
    (spelled : Spelling (before ++ '"' :: after) c) : before = ['\\'] := by
  generalize parts : before ++ '"' :: after = spelling at spelled
  have member : '"' ∈ spelling := by simp [← parts]
  cases spelled with
  | plain quote backslash => exact absurd (List.mem_singleton.mp member).symm quote
  | letter listed =>
    obtain _ | ⟨first, _ | ⟨second, rest⟩⟩ := before
    · cases parts
    · rw [(List.cons.inj parts).1]
    · simp at parts
  | unit width code =>
    rename_i digits
    have absent : '"' ∉ digits := Literal.not_mem_of_numeral code (by decide) (by decide)
    simp [absent] at member

theorem quotesEscaped_escapeChars (text : List Char) : QuotesEscaped (escapeChars text) := by
  induction text with
  | nil => simp [QuotesEscaped, escapeChars]
  | cons c text ih =>
    intro before after parts
    have spelled := spelling_escapeChar c
    rw [escapeChars, List.flatMap_cons, ← escapeChars, List.append_eq_append_iff] at parts
    -- The quote stands behind the spelling of the first character or in it.
    obtain ⟨inner, rfl, later⟩ | ⟨inner, own, later⟩ := parts
    · have odd := ih inner after later
      rw [backslashes_append]
      split_ifs
      · exact (even_backslashes_spelling spelled).add_odd odd
      · exact odd
    · obtain ⟨rfl, first⟩ | ⟨inner, rfl, -⟩ := List.cons_eq_append_iff.mp later
      · exact absurd (ih [] after first) (by decide)
      · rw [own] at spelled
        rw [eq_of_quote_in_spelling spelled]
        decide

/-- No quote of an escaped text ends the literal that it stands in, and the text reads back. -/
theorem unescape_escape (text : String) : QuotesEscaped (escape text).toList ∧
    unescape (escape text).toList = some text.toList := by
  rw [escape, String.toList_ofList]
  exact ⟨quotesEscaped_escapeChars text.toList, unescape_escapeChars text.toList⟩

end TypeLoom.Code
