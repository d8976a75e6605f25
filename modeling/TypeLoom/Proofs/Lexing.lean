import TypeLoom.Proofs.SourceLines

/-! A lexer that finds the string literals and comments among the code of a file. It knows the part
of the language that a generated file uses: whatever else could begin a literal, a comment or a
directive is marked as stray, and so is a literal that a line end cuts off. -/
namespace TypeLoom.Code

/-- What stands out from the code, without the quotes or the two slashes. -/
inductive Token where
  | literal (body : List Char)
  | comment (text : List Char)
  | stray
deriving DecidableEq, Repr

/-- What the lexer is inside of. -/
inductive Mode where
  | code
  /-- After the mark of an identifier that is a reserved word. -/
  | marked
  /-- After the first slash of a comment. -/
  | slash
  | literal (body : List Char)
  /-- After a backslash in a literal. -/
  | escaped (body : List Char)
  | comment (text : List Char)

/-- Characters of code that can begin something else. -/
def openers : List Char := ['"', '\x27', '/', '@', '#', '$']

def isPlain (c : Char) : Bool := !openers.contains c

def Mode.close : Mode → List Token
  | code => []
  | comment text => [.comment text]
  | marked | slash | literal _ | escaped _ => [.stray]

def Mode.read (c : Char) : Mode → List Token × Mode
  | code =>
    if c = '"' then ([], literal [])
    else if c = '/' then ([], slash)
    else if c = '@' then ([], marked)
    else if isPlain c then ([], code)
    else ([.stray], code)
  | marked => if isPlain c then ([], code) else ([.stray], code)
  | slash => if c = '/' then ([], comment []) else ([.stray], code)
  | literal body =>
    if c = '"' then ([.literal body], code)
    else if c = '\\' then ([], escaped (body ++ [c]))
    else ([], literal (body ++ [c]))
  | escaped body => ([], literal (body ++ [c]))
  | comment text => ([], comment (text ++ [c]))

def lexFrom : Mode → List Char → List Token
  | mode, [] => mode.close
  | mode, c :: rest =>
    if endsLine c then mode.close ++ lexFrom .code rest
    else (mode.read c).1 ++ lexFrom (mode.read c).2 rest

/-- The literals and comments of a text. -/
def lex (text : List Char) : List Token :=
  lexFrom .code text

theorem lex_nil : lex [] = [] := rfl

theorem lexFrom_of_endsLine {c : Char} (ends : endsLine c = true) (mode : Mode) (rest : List Char) :
    lexFrom mode (c :: rest) = mode.close ++ lex rest := by
  rw [lexFrom, if_pos ends, lex]

theorem lexFrom_of_inside {c : Char} (inside : endsLine c = false) (mode : Mode)
    (rest : List Char) :
    lexFrom mode (c :: rest) = (mode.read c).1 ++ lexFrom (mode.read c).2 rest := by
  rw [lexFrom, if_neg (by simp [inside])]

theorem lexFrom_append_feed (mode : Mode) (text rest : List Char) :
    lexFrom mode (text ++ '\n' :: rest) = lexFrom mode text ++ lex rest := by
  induction text generalizing mode with
  | nil => exact lexFrom_of_endsLine (by decide) mode rest
  | cons c text ih =>
    rw [List.cons_append]
    cases ends : endsLine c with
    | true =>
      rw [lexFrom_of_endsLine ends, lexFrom_of_endsLine ends, lex, lex, ih, List.append_assoc, lex]
    | false => rw [lexFrom_of_inside ends, lexFrom_of_inside ends, ih, List.append_assoc]

theorem lex_append_feed (text rest : List Char) :
    lex (text ++ '\n' :: rest) = lex text ++ lex rest :=
  lexFrom_append_feed .code text rest

/-- Lines one after the other, the first one read from inside of something. -/
def lexLines (mode : Mode) : List (List Char) → List Token
  | [] => mode.close
  | line :: rest => lexFrom mode line ++ rest.flatMap lex

theorem lexLines_code (lines : List (List Char)) : lexLines .code lines = lines.flatMap lex := by
  cases lines <;> rfl

theorem lexLines_consHead (mode : Mode) (c : Char) (lines : List (List Char)) :
    lexLines mode (Text.consHead c lines) =
      if endsLine c then mode.close ++ lexLines .code lines
      else (mode.read c).1 ++ lexLines (mode.read c).2 lines := by
  cases lines with
  | nil => simp [Text.consHead, lexLines, lexFrom]
  | cons line rest =>
    rw [Text.consHead, lexLines, lexLines, lexLines, lexFrom]
    split_ifs <;> rw [List.append_assoc]

/-- A line feed leaves the lexer in code whatever came before, so each line is read on its own. -/
theorem lexFrom_eq_lexLines (mode : Mode) (text : List Char) :
    lexFrom mode text = lexLines mode (Text.lines text) := by
  fun_induction Text.lines text generalizing mode with
  | case1 => rfl
  | case2 rest ih =>
    rw [lexFrom_of_endsLine (by decide), lexLines, lex, ih, lexLines_code]
    rfl
  | case3 c rest other pair ih =>
    obtain ⟨rfl, next⟩ := pair
    obtain ⟨later, rfl⟩ : ∃ later, rest = '\n' :: later := List.head?_eq_some_iff.mp next
    rw [← ih, lexFrom_of_endsLine (by decide), lexFrom_of_endsLine (by decide), lex,
      lexFrom_of_endsLine (by decide)]
    rfl
  | case4 c rest other pair ih =>
    rw [lexFrom, lexLines_consHead, ih, ih]

theorem lex_eq_flatMap_lines (text : List Char) : lex text = (Text.lines text).flatMap lex := by
  rw [lex, lexFrom_eq_lexLines, lexLines_code]

theorem lex_intercalate_feed (lines : List (List Char)) :
    lex (['\n'].intercalate lines) = lines.flatMap lex := by
  induction lines with
  | nil => rfl
  | cons line rest ih =>
    cases rest with
    | nil => simp
    | cons next rest =>
      rw [List.intercalate_cons_cons, List.append_assoc, List.singleton_append, lex_append_feed, ih]
      rfl

theorem isPlain_of {p : Char → Bool} (without : (openers.all fun c => !p c) = true) {c : Char}
    (own : p c = true) : isPlain c = true := by
  rw [isPlain, Bool.not_eq_true', List.contains_eq_mem, decide_eq_false_iff_not]
  intro member
  have opener := List.all_eq_true.mp without c member
  rw [own] at opener
  cases opener

theorem isPlain_replicate (n : Nat) {c : Char} (plain : isPlain c = true) :
    ∀ d ∈ List.replicate n c, isPlain d = true := by
  intro d member
  rw [List.eq_of_mem_replicate member, plain]

theorem lex_cons_plain {c : Char} (plain : isPlain c = true) (rest : List Char) :
    lex (c :: rest) = lex rest := by
  cases ends : endsLine c with
  | true => exact lexFrom_of_endsLine ends .code rest
  | false =>
    have ne (other : Char) (opens : isPlain other = false) : c ≠ other := by
      rintro rfl
      rw [opens] at plain
      cases plain
    have read : Mode.read c .code = ([], .code) := by
      simp [Mode.read, plain, ne '"' (by decide), ne '/' (by decide), ne '@' (by decide)]
    rw [lex, lexFrom_of_inside ends, read]
    rfl

theorem lex_append_plain {text : List Char} (plain : ∀ c ∈ text, isPlain c = true)
    (rest : List Char) : lex (text ++ rest) = lex rest := by
  induction text with
  | nil => rfl
  | cons c text ih =>
    rw [List.forall_mem_cons] at plain
    rw [List.cons_append, lex_cons_plain plain.1, ih plain.2]

theorem lex_mark {c : Char} (plain : isPlain c = true) (inside : endsLine c = false)
    (rest : List Char) : lex ('@' :: c :: rest) = lex rest := by
  have mark : Mode.read '@' .code = ([], .marked) := rfl
  have read : Mode.read c .marked = ([], .code) := by simp [Mode.read, plain]
  rw [lex, lexFrom_of_inside (by decide), mark, lexFrom_of_inside inside, read]
  rfl

/-- Indentation goes in front of lines, where the lexer is in code. -/
theorem lex_indent (text : String) (levels : Nat) :
    lex (indent text levels).toList = lex text.toList := by
  have margin := isPlain_replicate (4 * levels) (show isPlain ' ' = true by decide)
  have line (line : List Char) : lex (if line = [] then "" else
      String.ofList (List.replicate (4 * levels) ' ' ++ line)).toList = lex line := by
    split_ifs with none
    · rw [none]
      rfl
    · rw [String.toList_ofList, lex_append_plain margin]
  rw [indent, String.toList_intercalate, List.map_map]
  refine (lex_intercalate_feed _).trans ?_
  rw [lex_eq_flatMap_lines text.toList, List.flatMap_map]
  simp only [Function.comp_apply, line]

theorem lexFrom_literal_letters {word : List Char} (letters : ∀ c ∈ word, c.isAlphanum = true)
    (body rest : List Char) :
    lexFrom (.literal body) (word ++ rest) = lexFrom (.literal (body ++ word)) rest := by
  induction word generalizing body with
  | nil => rw [List.append_nil]; rfl
  | cons c word ih =>
    rw [List.forall_mem_cons] at letters
    have quote : c ≠ '"' := by rintro rfl; cases letters.1
    have backslash : c ≠ '\\' := by rintro rfl; cases letters.1
    have read : Mode.read c (.literal body) = ([], .literal (body ++ [c])) := by
      simp [Mode.read, quote, backslash]
    rw [List.cons_append, lexFrom_of_inside (endsLine_of_isAlphanum letters.1), read,
      List.nil_append, ih letters.2, List.append_assoc, List.singleton_append]

theorem lexFrom_literal_escapeChar {c : Char} (fits : isSeparator c = false)
    (body rest : List Char) : lexFrom (.literal body) (escapeChar c ++ rest) =
      lexFrom (.literal (body ++ escapeChar c)) rest := by
  rcases escapeChar_cases c with ⟨-, mark, digits, spelled, inside, letters⟩ |
    ⟨spelled, quote, backslash, same⟩
  · rw [spelled, List.cons_append, List.cons_append, lexFrom_of_inside (by decide),
      lexFrom_of_inside inside]
    have read := lexFrom_literal_letters letters (body ++ ['\\', mark]) rest
    simpa [Mode.read] using read
  · rw [spelled, List.singleton_append, lexFrom_of_inside (same.trans fits)]
    simp [Mode.read, quote, backslash]

theorem lexFrom_literal_escapeChars {text : List Char} (fits : ∀ c ∈ text, isSeparator c = false)
    (body rest : List Char) : lexFrom (.literal body) (escapeChars text ++ rest) =
      lexFrom (.literal (body ++ escapeChars text)) rest := by
  induction text generalizing body with
  | nil => rw [escapeChars, List.flatMap_nil, List.append_nil]; rfl
  | cons c text ih =>
    rw [List.forall_mem_cons] at fits
    rw [escapeChars, List.flatMap_cons, ← escapeChars, List.append_assoc,
      lexFrom_literal_escapeChar fits.1, ih fits.2, List.append_assoc]

theorem lex_literal {text : List Char} (fits : ∀ c ∈ text, isSeparator c = false)
    (rest : List Char) :
    lex ('"' :: escapeChars text ++ '"' :: rest) = .literal (escapeChars text) :: lex rest := by
  have opened := lexFrom_literal_escapeChars fits [] ('"' :: rest)
  rw [List.nil_append, lexFrom_of_inside (by decide) (.literal (escapeChars text))] at opened
  rw [lex, List.cons_append, lexFrom_of_inside (by decide)]
  exact opened

theorem lexFrom_comment {text : List Char} (inside : ∀ c ∈ text, endsLine c = false)
    (before rest : List Char) :
    lexFrom (.comment before) (text ++ rest) = lexFrom (.comment (before ++ text)) rest := by
  induction text generalizing before with
  | nil => rw [List.append_nil]; rfl
  | cons c text ih =>
    rw [List.forall_mem_cons] at inside
    rw [List.cons_append, lexFrom_of_inside inside.1, Mode.read, List.nil_append, ih inside.2,
      List.append_assoc, List.singleton_append]

theorem lex_comment {text : List Char} (inside : ∀ c ∈ text, endsLine c = false)
    (rest : List Char) : lex ('/' :: '/' :: text ++ '\n' :: rest) = .comment text :: lex rest := by
  have opened := lexFrom_comment inside [] ('\n' :: rest)
  rw [List.nil_append, lexFrom_of_endsLine (by decide)] at opened
  rw [lex, List.cons_append, List.cons_append, lexFrom_of_inside (by decide),
    lexFrom_of_inside (by decide)]
  exact opened

def Token.text : Token → List Char
  | literal text | comment text => text
  | stray => []

def Mode.text : Mode → List Char
  | literal text | escaped text | comment text => text
  | code | marked | slash => []

theorem Mode.mem_close (mode : Mode) : ∀ token ∈ mode.close, token.text ⊆ mode.text := by
  cases mode <;> simp [close, Token.text, Mode.text]

theorem Mode.mem_read (mode : Mode) (c : Char) :
    (∀ token ∈ (mode.read c).1, token.text ⊆ mode.text) ∧
      (mode.read c).2.text ⊆ mode.text ++ [c] := by
  cases mode with
  | escaped body | comment text => simp [read, Mode.text]
  | code | marked | slash | literal body =>
    simp only [read]
    split_ifs <;> simp [Token.text, Mode.text]

theorem lexFrom_inside (text : List Char) (mode : Mode)
    (inside : ∀ c ∈ mode.text, endsLine c = false) :
    ∀ token ∈ lexFrom mode text, ∀ c ∈ token.text, endsLine c = false := by
  induction text generalizing mode with
  | nil => exact fun token member c within => inside c (mode.mem_close token member within)
  | cons c text ih =>
    cases ends : endsLine c with
    | true =>
      rw [lexFrom_of_endsLine ends, List.forall_mem_append]
      exact ⟨fun token member c within => inside c (mode.mem_close token member within),
        ih .code (by simp [Mode.text])⟩
    | false =>
      obtain ⟨made, next⟩ := mode.mem_read c
      rw [lexFrom_of_inside ends, List.forall_mem_append]
      refine ⟨fun token member c within => inside c (made token member within), ih _ ?_⟩
      intro d within
      rcases List.mem_append.mp (next within) with old | new
      · exact inside d old
      · rw [List.mem_singleton.mp new, ends]

theorem lex_inside {text : List Char} {token : Token} (member : token ∈ lex text) :
    ∀ c ∈ token.text, endsLine c = false :=
  lexFrom_inside text .code (by simp [Mode.text]) token member

end TypeLoom.Code
