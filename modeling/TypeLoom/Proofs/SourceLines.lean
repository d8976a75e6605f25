import Mathlib.Data.List.DropRight
import Mathlib.Tactic.SplitIfs
import TypeLoom.Code.Text
import TypeLoom.Proofs.Encoding

/-! Lines of source. A line of source ends at five characters, while comments are cut into lines at
line feeds only and escapes are for control characters only. So an escaped text keeps the separators
among its line ends, and a doc comment has lines without a mark where the text has another line end
inside a line. -/
namespace TypeLoom.Code

/-- The line separator and the paragraph separator, which are no control characters. -/
def isSeparator (c : Char) : Bool :=
  c == '\u2028' || c == '\u2029'

def endsLine (c : Char) : Bool :=
  c == '\n' || c == '\r' || c == '\u0085' || isSeparator c

/-- The lines of source text. A carriage return and a line feed after it end one line together. -/
def sourceLines : List Char → List (List Char)
  | [] => []
  | c :: rest =>
    if c = '\r' ∧ rest.head? = some '\n' then sourceLines rest
    else if endsLine c then [] :: sourceLines rest
    else Text.consHead c (sourceLines rest)

def commentMark : List Char := ['/', '/', '/']

theorem endsLine_eq_isSeparator {c : Char} (shown : isControl c = false) :
    endsLine c = isSeparator c := by
  have feed : c ≠ '\n' := by rintro rfl; cases shown
  have back : c ≠ '\r' := by rintro rfl; cases shown
  have next : c ≠ '\u0085' := by rintro rfl; cases shown
  simp [endsLine, feed, back, next]

theorem of_endsLine {p : Char → Bool}
    (each : ['\n', '\r', '\u0085', '\u2028', '\u2029'].all p = true) {c : Char}
    (ends : endsLine c = true) : p c = true := by
  simp only [endsLine, isSeparator, Bool.or_eq_true, beq_iff_eq] at ends
  refine List.all_eq_true.mp each c ?_
  rcases ends with ((rfl | rfl) | rfl) | rfl | rfl <;> simp

theorem endsLine_of {p : Char → Bool}
    (without : (['\n', '\r', '\u0085', '\u2028', '\u2029'].all fun c => !p c) = true) {c : Char}
    (own : p c = true) : endsLine c = false := by
  rw [← Bool.not_eq_true]
  intro ends
  have other := of_endsLine without ends
  rw [own] at other
  cases other

theorem isBlank_of_endsLine {c : Char} (ends : endsLine c = true) : Text.isBlank c = true :=
  of_endsLine (by decide) ends

theorem inside_of_all {text : List Char} (all : (text.all fun c => !endsLine c) = true) :
    ∀ c ∈ text, endsLine c = false := by
  simpa using all

theorem isAlphanum_fourHexDigits (n : Nat) : ∀ d ∈ fourHexDigits n, d.isAlphanum = true := by
  have letters : Graph.hexDigits.all Char.isAlphanum = true := by decide
  intro d member
  rcases List.mem_append.mp member with zero | digit
  · rw [List.eq_of_mem_replicate zero]
    decide
  · exact List.all_eq_true.mp letters d (Graph.mem_hexDigits_of_mem_toDigits digit)

theorem endsLine_of_isAlphanum {c : Char} (letter : c.isAlphanum = true) : endsLine c = false :=
  endsLine_of (by decide) letter

theorem escapeChar_cases (c : Char) :
    (isSeparator c = false ∧ ∃ mark digits, escapeChar c = '\\' :: mark :: digits ∧
      endsLine mark = false ∧ ∀ d ∈ digits, d.isAlphanum = true) ∨
    (escapeChar c = [c] ∧ c ≠ '"' ∧ c ≠ '\\' ∧ endsLine c = isSeparator c) := by
  have short (mark : Char) (inside : endsLine mark = false) (other : isSeparator c = false)
      (spelled : escapeChar c = ['\\', mark]) : isSeparator c = false ∧ ∃ mark digits,
        escapeChar c = '\\' :: mark :: digits ∧ endsLine mark = false ∧
          ∀ d ∈ digits, d.isAlphanum = true :=
    ⟨other, mark, [], spelled, inside, by simp⟩
  by_cases backslash : c = '\\'
  · subst backslash
    exact .inl (short '\\' (by decide) (by decide) rfl)
  by_cases quote : c = '"'
  · subst quote
    exact .inl (short '"' (by decide) (by decide) rfl)
  by_cases feed : c = '\n'
  · subst feed
    exact .inl (short 'n' (by decide) (by decide) rfl)
  by_cases back : c = '\r'
  · subst back
    exact .inl (short 'r' (by decide) (by decide) rfl)
  by_cases tab : c = '\t'
  · subst tab
    exact .inl (short 't' (by decide) (by decide) rfl)
  by_cases null : c = '\x00'
  · subst null
    exact .inl (short '0' (by decide) (by decide) rfl)
  rw [escapeChar, if_neg backslash, if_neg quote, if_neg feed, if_neg back, if_neg tab, if_neg null]
  cases control : isControl c with
  | true =>
    refine .inl ⟨?_, 'u', fourHexDigits c.toNat, if_pos rfl, by decide, isAlphanum_fourHexDigits _⟩
    rw [← Bool.not_eq_true]
    intro separator
    simp only [isSeparator, Bool.or_eq_true, beq_iff_eq] at separator
    rcases separator with rfl | rfl <;> cases control
  | false =>
    exact .inr ⟨if_neg Bool.false_ne_true, quote, backslash, endsLine_eq_isSeparator control⟩

theorem filter_endsLine_escapeChar (c : Char) :
    (escapeChar c).filter endsLine = [c].filter isSeparator := by
  rcases escapeChar_cases c with ⟨other, mark, digits, spelled, inside, letters⟩ |
    ⟨spelled, -, -, same⟩
  · have none : digits.filter endsLine = [] := List.filter_eq_nil_iff.mpr fun d member => by
      simp [endsLine_of_isAlphanum (letters d member)]
    have front : endsLine '\\' = false := by decide
    simp [spelled, front, inside, none, other]
  · simp [spelled, List.filter_cons, same]

theorem filter_endsLine_escapeChars (text : List Char) :
    (escapeChars text).filter endsLine = text.filter isSeparator := by
  induction text with
  | nil => rfl
  | cons c rest ih =>
    have first := filter_endsLine_escapeChar c
    rw [escapeChars, List.flatMap_cons, List.filter_append, first, ← escapeChars, ih,
      ← List.filter_append]
    rfl

theorem consHead_ne_nil (c : Char) (pieces : List (List Char)) : Text.consHead c pieces ≠ [] := by
  cases pieces <;> simp [Text.consHead]

theorem consHead_append (c : Char) {pieces : List (List Char)} (some : pieces ≠ [])
    (rest : List (List Char)) :
    Text.consHead c (pieces ++ rest) = Text.consHead c pieces ++ rest := by
  cases pieces with
  | nil => exact absurd rfl some
  | cons piece pieces => rfl

theorem foldr_consHead (word : List Char) (piece : List Char) (rest : List (List Char)) :
    word.foldr Text.consHead (piece :: rest) = (word ++ piece) :: rest := by
  induction word with
  | nil => rfl
  | cons c word ih => rw [List.foldr_cons, ih]; rfl

theorem sourceLines_ne_nil {text : List Char} (some : text ≠ []) : sourceLines text ≠ [] := by
  fun_induction sourceLines text with
  | case1 => exact absurd rfl some
  | case2 c rest pair ih =>
    refine ih ?_
    rintro rfl
    cases pair.2
  | case3 c rest pair ends ih => simp
  | case4 c rest pair inside ih => exact consHead_ne_nil c _

theorem sourceLines_cons {c : Char} (inside : endsLine c = false) (rest : List Char) :
    sourceLines (c :: rest) = Text.consHead c (sourceLines rest) := by
  have ne : c ≠ '\r' := by rintro rfl; cases inside
  rw [sourceLines, if_neg fun pair => ne pair.1, if_neg (by simp [inside])]

theorem sourceLines_append {word : List Char} (inside : ∀ c ∈ word, endsLine c = false)
    (rest : List Char) :
    sourceLines (word ++ rest) = word.foldr Text.consHead (sourceLines rest) := by
  induction word with
  | nil => rfl
  | cons c word ih =>
    rw [List.forall_mem_cons] at inside
    rw [List.cons_append, sourceLines_cons inside.1, ih inside.2, List.foldr_cons]

theorem sourceLines_line {line : List Char} (inside : ∀ c ∈ line, endsLine c = false)
    (rest : List Char) : sourceLines (line ++ '\n' :: rest) = line :: sourceLines rest := by
  have feed : sourceLines ('\n' :: rest) = [] :: sourceLines rest := by simp [sourceLines, endsLine]
  rw [sourceLines_append inside, feed, foldr_consHead, List.append_nil]

theorem sourceLines_append_feed {c : Char} (inside : endsLine c = false) (text rest : List Char) :
    sourceLines (text ++ c :: '\n' :: rest) = sourceLines (text ++ [c]) ++ sourceLines rest := by
  induction text with
  | nil =>
    rw [List.nil_append, List.nil_append, sourceLines_cons inside, sourceLines_cons inside]
    simp [sourceLines, endsLine, Text.consHead]
  | cons d text ih =>
    have same : (text ++ c :: '\n' :: rest).head? = (text ++ [c]).head? := by cases text <;> rfl
    have some : sourceLines (text ++ [c]) ≠ [] := sourceLines_ne_nil (by simp)
    rw [List.cons_append, List.cons_append, sourceLines, sourceLines, same, ih]
    split_ifs
    · rfl
    · rfl
    · exact consHead_append d some _

theorem escapeXmlChar_inside {c : Char} (inside : endsLine c = false) :
    ∀ d ∈ escapeXmlChar c, endsLine d = false := by
  rw [escapeXmlChar]
  split_ifs
  · exact inside_of_all (by decide)
  · exact inside_of_all (by decide)
  · exact inside_of_all (by decide)
  · simpa using inside

theorem escapeXmlChar_of_endsLine {c : Char} (ends : endsLine c = true) :
    escapeXmlChar c = [c] :=
  beq_iff_eq.mp (of_endsLine (p := fun c => escapeXmlChar c == [c]) (by decide) ends)

theorem escapeXmlChars_cons (c : Char) (text : List Char) :
    escapeXmlChars (c :: text) = escapeXmlChar c ++ escapeXmlChars text := List.flatMap_cons

theorem head?_escapeXmlChars (text : List Char) :
    (escapeXmlChars text).head? = some '\n' ↔ text.head? = some '\n' := by
  cases text with
  | nil => rfl
  | cons c text =>
    rw [escapeXmlChars_cons, escapeXmlChar]
    split_ifs with amp less greater
    · subst amp; simp
    · subst less; simp
    · subst greater; simp
    · simp

theorem sourceLines_escapeXmlChars (text : List Char) :
    sourceLines (escapeXmlChars text) = (sourceLines text).map escapeXmlChars := by
  induction text with
  | nil => rfl
  | cons c text ih =>
    rw [escapeXmlChars_cons]
    cases ends : endsLine c with
    | true =>
      rw [escapeXmlChar_of_endsLine ends, List.singleton_append, sourceLines, sourceLines, ih, ends]
      simp only [head?_escapeXmlChars, if_true]
      split_ifs <;> rfl
    | false =>
      rw [sourceLines_append (escapeXmlChar_inside ends), ih, sourceLines_cons ends]
      cases lines : sourceLines text with
      | nil =>
        rw [List.map_nil, Text.consHead, List.map_singleton, escapeXmlChars, List.flatMap_singleton,
          escapeXmlChar]
        split_ifs <;> rfl
      | cons piece rest =>
        rw [List.map_cons, foldr_consHead, Text.consHead, List.map_cons, escapeXmlChars_cons]

theorem prefix_escapeXmlChars (n : Nat) (text : List Char) :
    List.replicate n '/' <+: escapeXmlChars text ↔ List.replicate n '/' <+: text := by
  induction n generalizing text with
  | zero => simp
  | succ n ih =>
    cases text with
    | nil => rfl
    | cons c text =>
      rw [escapeXmlChars_cons, escapeXmlChar, List.replicate_succ]
      split_ifs with amp less greater
      · subst amp; simp [List.cons_prefix_cons]
      · subst less; simp [List.cons_prefix_cons]
      · subst greater; simp [List.cons_prefix_cons]
      · rw [List.singleton_append, List.cons_prefix_cons, List.cons_prefix_cons, ih]

theorem commentMark_prefix_escapeXmlChars (text : List Char) :
    commentMark <+: escapeXmlChars text ↔ commentMark <+: text := prefix_escapeXmlChars 3 text

theorem endsLine_getLast_trimEnd {text : List Char} (some : Text.trimEnd text ≠ []) :
    endsLine ((Text.trimEnd text).getLast some) = false := by
  have shown := List.rdropWhile_last_not Text.isBlank text some
  rw [← Bool.not_eq_true]
  exact fun ends => shown (isBlank_of_endsLine ends)

theorem getLast_escapeXmlChars {text : List Char} (some : text ≠ [])
    (inside : endsLine (text.getLast some) = false) :
    ∃ front last, escapeXmlChars text = front ++ [last] ∧ endsLine last = false := by
  obtain ⟨front, last, split⟩ :
      ∃ front last, escapeXmlChar (text.getLast some) = front ++ [last] := by
    rw [escapeXmlChar]
    split_ifs
    · exact ⟨"&amp".toList, ';', by decide⟩
    · exact ⟨"&lt".toList, ';', by decide⟩
    · exact ⟨"&gt".toList, ';', by decide⟩
    · exact ⟨[], _, rfl⟩
  refine ⟨escapeXmlChars text.dropLast ++ front, last, ?_, ?_⟩
  · rw [List.append_assoc, ← split]
    conv_lhs => rw [← List.dropLast_append_getLast some]
    simp [escapeXmlChars]
  · exact escapeXmlChar_inside inside last (by simp [split])

/-- A line of a doc comment after two slashes. -/
def commentText (line : List Char) : List Char :=
  if Text.trimEnd line = [] then ['/'] else '/' :: ' ' :: escapeXmlChars (Text.trimEnd line)

theorem commentText_of_blank {line : List Char} (none : Text.trimEnd line = []) :
    commentText line = ['/'] := if_pos none

theorem commentText_of_shown {line : List Char} (some : Text.trimEnd line ≠ []) :
    commentText line = '/' :: ' ' :: escapeXmlChars (Text.trimEnd line) := if_neg some

theorem commentLine_eq (line : List Char) :
    commentLine line = '/' :: '/' :: commentText line ++ ['\n'] := by
  rw [commentLine, commentText]
  cases Text.trimEnd line <;> rfl

theorem toList_docComment (comment : String) : (docComment comment).toList =
    '/' :: '/' :: "/ <summary>".toList ++ '\n' ::
      ((Text.lines comment.toList).flatMap commentLine ++
        ('/' :: '/' :: "/ </summary>".toList ++ ['\n'])) := by
  have opening : "/// <summary>\n".toList = '/' :: '/' :: "/ <summary>".toList ++ ['\n'] := by
    decide
  have closing : "/// </summary>\n".toList = '/' :: '/' :: "/ </summary>".toList ++ ['\n'] := by
    decide
  have body := String.toList_ofList (l := (Text.lines comment.toList).flatMap commentLine)
  unfold docComment
  rw [String.toList_append, String.toList_append, body, opening, closing, List.append_assoc,
    List.append_assoc, List.singleton_append]

theorem sourceLines_commentLine (line rest : List Char) :
    ∃ first, commentMark <+: first ∧ sourceLines (commentLine line ++ rest) =
      first :: ((sourceLines (Text.trimEnd line)).tail.map escapeXmlChars ++ sourceLines rest) := by
  rw [commentLine_eq]
  by_cases none : Text.trimEnd line = []
  · refine ⟨commentMark, List.prefix_rfl, ?_⟩
    have mark : ∀ c ∈ commentMark, endsLine c = false := inside_of_all (by decide)
    rw [commentText_of_blank none, none]
    exact sourceLines_line mark rest
  · obtain ⟨front, last, split, inside⟩ :=
      getLast_escapeXmlChars none (endsLine_getLast_trimEnd none)
    have cut := sourceLines_append_feed inside (commentMark ++ ' ' :: front) rest
    have mark : ∀ c ∈ ['/', '/', '/', ' '], endsLine c = false := inside_of_all (by decide)
    have whole := sourceLines_append mark (escapeXmlChars (Text.trimEnd line))
    obtain ⟨piece, pieces, lines⟩ := List.exists_cons_of_ne_nil (sourceLines_ne_nil none)
    refine ⟨['/', '/', '/', ' '] ++ escapeXmlChars piece, by simp [commentMark], ?_⟩
    rw [sourceLines_escapeXmlChars, lines, List.map_cons, foldr_consHead] at whole
    rw [commentText_of_shown none, lines, List.tail_cons, ← List.cons_append, ← whole, split]
    simpa [commentMark] using cut

theorem commentMark_flatMap_commentLine (lines : List (List Char)) (rest : List Char) :
    (∀ line ∈ sourceLines (lines.flatMap commentLine ++ rest), commentMark <+: line) ↔
      (∀ line ∈ lines, ∀ later ∈ (sourceLines (Text.trimEnd line)).tail, commentMark <+: later) ∧
        ∀ line ∈ sourceLines rest, commentMark <+: line := by
  induction lines with
  | nil => simp
  | cons line lines ih =>
    obtain ⟨first, isMarked, cut⟩ :=
      sourceLines_commentLine line (lines.flatMap commentLine ++ rest)
    rw [List.flatMap_cons, List.append_assoc, cut, List.forall_mem_cons, List.forall_mem_append,
      List.forall_mem_map, ih, List.forall_mem_cons, and_assoc]
    simp only [isMarked, true_and, commentMark_prefix_escapeXmlChars]

theorem commentMark_docComment (comment : String) :
    (∀ line ∈ sourceLines (docComment comment).toList, commentMark <+: line) ↔
      ∀ line ∈ Text.lines comment.toList, ∀ later ∈ (sourceLines (Text.trimEnd line)).tail,
        commentMark <+: later := by
  rw [toList_docComment, sourceLines_line (inside_of_all (by decide)), List.forall_mem_cons,
    commentMark_flatMap_commentLine, sourceLines_line (inside_of_all (by decide)),
    List.forall_mem_cons]
  simp [sourceLines, commentMark]

end TypeLoom.Code
