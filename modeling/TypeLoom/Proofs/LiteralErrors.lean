import TypeLoom.Proofs.LiteralPlaces

/-! What the errors of an evaluation say of the text. The readers of strings, arrays and whole
expressions by places agree with those of what is left. Main result: no source makes the evaluation
by places fault, and an error that names a character, a quote or the rest of the text by its place
names what stands there. -/
namespace TypeLoom.Literal
open Text (isBlank)
open Places (ok_bind)

section agreement
variable {chars : List Char}

section strings
variable {place : Nat} (within : place ≤ chars.length)
include within

theorem agree_hexEscape (blame : Char) (width : Nat) :
    Agree chars place chars.drop (hexEscapeAt chars blame width place)
      (readHexEscape blame width (chars.drop place)) := by
  rw [hexEscapeAt, readHexEscape, List.length_drop]
  have same : chars.length < place + width ↔ chars.length - place < width := by omega
  simp only [same]
  refine .ite (fun _ => .refusal (.invalidEscape _)) fun fits => ?_
  have inside : place + width ≤ chars.length := by omega
  rw [Places.slice_eq (Nat.le_add_right _ _) inside, Nat.add_sub_cancel_left, checked_ok, ok_bind]
  cases charOfHex? ((chars.drop place).take width) with
  | none => exact .refusal (.invalidEscape _)
  | some c =>
    dsimp only
    rw [List.drop_drop]
    exact .value (Nat.le_add_right _ _) inside

variable {start steps : Nat} (enough : chars.length - place < steps)
include enough

theorem agree_bracedEscape : Agree chars place chars.drop (bracedEscapeAt chars steps place)
    (readEscape start ('u' :: '\x7b' :: chars.drop place)) := by
  rw [bracedEscapeAt, runEnd_eq _ enough, checked_ok, ok_bind, slice_run _ within, checked_ok,
    ok_bind, readEscape, ← drop_run, ← run]
  cases closes : chars[place + (run chars (· ≠ '\x7d') place).length]? with
  | none =>
    rw [drop_of_none closes]
    exact .refusal (.invalidEscape _)
  | some brace =>
    obtain rfl : brace = '\x7d' := by simpa using not_of_run_end closes
    rw [drop_of_some closes, if_pos rfl]
    cases charOfHex? (run chars (· ≠ '\x7d') place) with
    | none => exact .refusal (.invalidEscape _)
    | some c => exact .value (by omega) (inside_of_some closes)

variable (opening : (Error.unterminatedString start).Truthful chars)
include opening

omit within in
theorem agree_escape : Agree chars place chars.drop (escapeAt chars start steps place)
    (readEscape start (chars.drop place)) := by
  rw [escapeAt]
  cases there : chars[place]? with
  | none =>
    rw [drop_of_none there]
    exact .refusal opening
  | some c =>
    have inside := inside_of_some there
    rw [drop_of_some there, Option.elim_some]
    by_cases byte : c = 'x'
    · rw [byte, if_pos rfl]
      exact (agree_hexEscape inside 'x' 2).earlier (Nat.le_succ place)
    rw [if_neg byte]
    by_cases unit : c = 'u'
    · rw [unit, if_pos rfl]
      by_cases braced : chars[place + 1]? = some '\x7b'
      · rw [if_pos braced, drop_of_some braced]
        have further := inside_of_some braced
        exact (agree_bracedEscape further (by omega)).earlier (by omega)
      · rw [if_neg braced, readEscape]
        · exact (agree_hexEscape inside 'u' 4).earlier (Nat.le_succ place)
        · intro rest begins
          rw [← List.head?_drop, begins] at braced
          exact braced rfl
    · rw [if_neg unit, readEscape]
      · cases letterEscape? c with
        | none => exact .refusal (.invalidEscape c)
        | some escaped => exact .value (Nat.le_succ place) inside
      · exact byte
      · exact fun _ same _ => unit same
      · exact unit

end strings

section bodies
variable {start steps size place : Nat} (opening : (Error.unterminatedString start).Truthful chars)
  (within : place ≤ chars.length) (enough : chars.length - place < steps)
  (fits : chars.length - place ≤ size)
include opening within enough fits

theorem agree_quoted (quote : Char) :
    Agree chars place chars.drop (quotedAt chars quote start steps place)
      (readQuoted quote start size (chars.drop place)) := by
  induction steps generalizing size place with
  | zero => exact absurd enough (Nat.not_lt_zero _)
  | succ steps ih =>
    rw [quotedAt]
    cases there : chars[place]? with
    | none =>
      rw [drop_of_none there]
      cases size with
      | zero => exact .refusal opening
      | succ size => exact .refusal opening
    | some c =>
      have inside := inside_of_some there
      obtain ⟨size, rfl⟩ : ∃ least, size = least + 1 := Nat.exists_eq_add_one.mpr (by omega)
      rw [drop_of_some there, Option.elim_some, readQuoted]
      refine .ite (fun _ => .value (Nat.le_succ place) inside) fun _ => .ite (fun _ => ?_) fun _ =>
        .ite (fun _ => .refusal opening) fun _ => ?_
      -- The escape and the characters after it both blame the place where the string began.
      · refine (agree_escape (by omega) opening).bind fun _ next later inside => ?_
        refine (ih inside (by omega) (by omega)).bind fun _ stop further inside => ?_
        exact .value (by omega) inside
      · refine (ih inside (by omega) (by omega)).bind fun _ stop further inside => ?_
        exact .value (by omega) inside

theorem agree_template : Agree chars place chars.drop (templateAt chars start steps place)
    (readTemplate start size (chars.drop place)) := by
  induction steps generalizing size place with
  | zero => exact absurd enough (Nat.not_lt_zero _)
  | succ steps ih =>
    rw [templateAt]
    cases there : chars[place]? with
    | none =>
      rw [drop_of_none there]
      cases size with
      | zero => exact .refusal opening
      | succ size => exact .refusal opening
    | some c =>
      have inside := inside_of_some there
      obtain ⟨size, rfl⟩ : ∃ least, size = least + 1 := Nat.exists_eq_add_one.mpr (by omega)
      rw [drop_of_some there, Option.elim_some, readTemplate, List.head?_drop]
      refine .ite (fun _ => .value (Nat.le_succ place) inside) fun _ =>
        .ite (fun _ => .refusal .interpolation) fun _ => .ite (fun _ => ?_) fun _ => ?_
      · refine (agree_escape (by omega) opening).bind fun _ next later inside => ?_
        refine (ih inside (by omega) (by omega)).bind fun _ stop further inside => ?_
        exact .value (by omega) inside
      · refine (ih inside (by omega) (by omega)).bind fun _ stop further inside => ?_
        exact .value (by omega) inside

end bodies

theorem agree_text {steps start : Nat}
    {placed : (steps place : Nat) → Except Stop (List Char × Nat)}
    {body : (start size : Nat) → List Char → Except Error (List Char × List Char)}
    (agree : Agree chars (start + 1) chars.drop (placed steps (start + 1))
      (body start (chars.length - (start + 1)) (chars.drop (start + 1)))) :
    Agree chars start (Cursor.ofPlace chars) (textAt placed steps start)
      (readText (Cursor.ofPlace chars start) body) := by
  have inside : (Cursor.ofPlace chars start).rest.drop 1 = chars.drop (start + 1) :=
    List.drop_drop
  rw [textAt, readText, inside, List.length_drop]
  refine agree.bind fun text stop later within => ?_
  have ended : (Cursor.ofPlace chars start).offset +
      ((Cursor.ofPlace chars start).rest.length - (chars.drop stop).length) = stop := by
    change start + ((chars.drop start).length - (chars.drop stop).length) = stop
    rw [List.length_drop, List.length_drop]
    omega
  dsimp only
  rw [ended]
  exact .value (by omega) within

/-- Values are read alike. Every character takes two steps at most, one to enter an array and one
for an item. -/
def ValuesAgree (chars : List Char) (steps : Nat) : Prop :=
  ∀ size place, place ≤ chars.length → 2 * (chars.length - place) < steps →
    2 * (chars.length - place) ≤ size → Agree chars place (Cursor.ofPlace chars)
      (valueAt chars steps place) (readValue size (Cursor.ofPlace chars place))

def ItemsAgree (chars : List Char) (steps : Nat) : Prop :=
  ∀ size place, place ≤ chars.length → 2 * (chars.length - place) + 1 < steps →
    2 * (chars.length - place) + 1 ≤ size → Agree chars place (Cursor.ofPlace chars)
      (itemsAt chars steps place) (readItems size (Cursor.ofPlace chars place))

theorem ItemsAgree.value_step {steps : Nat} (items : ItemsAgree chars steps) :
    ValuesAgree chars (steps + 1) := by
  intro size place within enough fits
  rw [valueAt, runEnd_eq isBlank (by omega), checked_ok, ok_bind]
  cases there : chars[place + (run chars isBlank place).length]? with
  | none =>
    cases size with
    | zero => exact .refusal .empty
    | succ size =>
      rw [readValue, skipBlanks_ofPlace, Cursor.ofPlace, drop_of_none there]
      exact .refusal .empty
  | some found =>
    have inside := inside_of_some there
    obtain ⟨size, rfl⟩ : ∃ least, size = least + 1 := Nat.exists_eq_add_one.mpr (by omega)
    rw [readValue, skipBlanks_ofPlace]
    -- A quote or a character that is refused is told by the place where the blanks end.
    generalize skipped : place + (run chars isBlank place).length = first at *
    rw [rest_of_some there, Option.elim_some]
    refine .earlier (show place ≤ first by omega) ?_
    refine .ite (fun quote => ?_) fun _ => .ite (fun quote => ?_) fun _ => .ite (fun _ => ?_)
      fun _ => .ite (fun _ => agree_number (by omega) (by omega)) fun _ =>
        .ite (fun _ => agree_word (by omega) (by omega)) fun _ => .refusal (.unexpected there)
    · refine agree_text (agree_quoted (.unterminatedString ?_) inside (by omega) (by omega) found)
      obtain rfl | rfl := quote
      · exact .inl there
      · exact .inr (.inl there)
    · rw [quote] at there
      exact agree_text (agree_template (.unterminatedString (.inr (.inr there))) inside (by omega)
        (by omega))
    · rw [advance_ofPlace]
      refine (items size (first + 1) inside (by omega) (by omega)).bind
        fun _ stop later within => ?_
      exact .value (by omega) within

/-- What stands behind an item, told from its first character. -/
def readBehind (size : Nat) (item : Value) (c : Cursor) : Except Error (List Value × Cursor) :=
  c.rest.head?.elim (.error .unterminatedArray) fun found =>
    if found = ',' then do
      let others ← readItems size (c.advance 1)
      .ok (item :: others.1, others.2)
    else if found = ']' then .ok ([item], c.advance 1)
    else .error (.unexpected found c.offset)

theorem readItems_behind {size : Nat} {c : Cursor} {first : Char} {rest : List Char}
    (begins : c.skipBlanks.rest = first :: rest) (opens : first ≠ ']') :
    readItems (size + 1) c =
      readValue size c.skipBlanks >>= fun item => readBehind size item.1 item.2.skipBlanks := by
  rw [readItems, begins]
  split
  · rename_i same
    cases same
  · rename_i same
    exact absurd (List.cons.inj same).1 opens
  refine bind_congr fun item => ?_
  rw [readBehind]
  dsimp only
  split
  · rename_i ended
    rw [ended]
    rfl
  · rename_i comma
    rw [comma]
    rfl
  · rename_i closes
    rw [closes]
    rfl
  · rename_i found _ no_comma no_bracket behind
    rw [behind, List.head?_cons, Option.elim_some, if_neg no_comma, if_neg no_bracket]

theorem ItemsAgree.behind {steps size place : Nat} (items : ItemsAgree chars steps)
    (within : place ≤ chars.length) (enough : 2 * (chars.length - place) < steps)
    (fits : 2 * (chars.length - place) ≤ size) (item : Value) :
    Agree chars place (Cursor.ofPlace chars)
      (behindAt chars (itemsAt chars steps) item (steps + 1) place)
      (readBehind size item (Cursor.ofPlace chars place).skipBlanks) := by
  rw [behindAt, runEnd_eq isBlank (by omega), checked_ok, ok_bind, skipBlanks_ofPlace, readBehind,
    head?_ofPlace]
  generalize skipped : place + (run chars isBlank place).length = stop
  cases behind : chars[stop]? with
  | none => exact .refusal .unterminatedArray
  | some found =>
    have inside := inside_of_some behind
    rw [Option.elim_some, Option.elim_some, advance_ofPlace, Places.minus_add, checked_ok, ok_bind]
    refine .ite (fun _ => ?_) fun _ => .ite (fun _ => .value (by omega) inside) fun _ =>
      .refusal (.unexpected behind)
    refine (items size (stop + 1) inside (by omega) (by omega)).bind fun _ last later within => ?_
    exact .value (by omega) within

theorem ItemsAgree.step {steps : Nat} (values : ValuesAgree chars steps)
    (items : ItemsAgree chars steps) : ItemsAgree chars (steps + 1) := by
  intro size place within enough fits
  obtain ⟨size, rfl⟩ : ∃ least, size = least + 1 := Nat.exists_eq_add_one.mpr (by omega)
  have reached := length_run_le isBlank within
  have skips := @skipBlanks_ofPlace chars place
  rw [itemsAt, runEnd_eq isBlank (by omega), checked_ok, ok_bind]
  generalize skipped : place + (run chars isBlank place).length = first at *
  refine .earlier (show place ≤ first by omega) ?_
  cases there : chars[first]? with
  | none =>
    rw [readItems, skips, rest_of_none there]
    exact .refusal .unterminatedArray
  | some c =>
    have begins := rest_of_some there
    rw [← skips] at begins
    rw [Option.elim_some]
    by_cases closes : c = ']'
    · rw [if_pos closes, readItems, begins, closes, skips, advance_ofPlace]
      exact .value (Nat.le_succ first) (inside_of_some there)
    rw [if_neg closes, readItems_behind begins closes, skips]
    refine (values size first reached (by omega) (by omega)).bind fun item stop later inside => ?_
    exact (items.behind inside (by omega) (by omega) item).earlier later

theorem values_items_agree (chars : List Char) (steps : Nat) :
    ValuesAgree chars steps ∧ ItemsAgree chars steps := by
  induction steps with
  | zero => exact ⟨fun _ _ _ enough => absurd enough (Nat.not_lt_zero _),
      fun _ _ _ enough => absurd enough (Nat.not_lt_zero _)⟩
  | succ steps ih => exact ⟨ih.2.value_step, ih.2.step ih.1⟩

theorem truthful_trailingInput {place : Nat} {c : Char} (there : chars[place]? = some c)
    (visible : isBlank c = false) :
    (Error.trailingInput (String.ofList (chars.drop place))).Truthful chars := by
  have starts := String.toList_ofList.trans (drop_of_some there)
  refine .trailingInput visible starts ?_
  rw [String.toList_ofList]
  exact List.drop_suffix place chars

/-- With more than two steps for each character, evaluation by places has no fault. -/
theorem evaluate_cases (source : String) {steps : Nat}
    (enough : 2 * (expression source.toList).length < steps) :
    (∃ value, evaluateAt (expression source.toList) steps = .ok value ∧
      evaluate source = .ok value) ∨
    ∃ reason : Error, reason.Truthful (expression source.toList) ∧
      evaluateAt (expression source.toList) steps = refuse reason ∧
        evaluate source = .error reason := by
  rw [evaluate]
  generalize expression source.toList = chars at *
  have agree := (values_items_agree chars steps).1 (2 * chars.length) 0 (Nat.zero_le _) enough
    (Nat.le_refl _)
  rw [Cursor.ofPlace, List.drop_zero] at agree
  rw [evaluateAt]
  dsimp only
  generalize valueAt chars steps 0 = placed at *
  generalize readValue (2 * chars.length) ⟨0, chars⟩ = read at *
  cases agree with
  | refusal truthful => exact .inr ⟨_, truthful, rfl, rfl⟩
  | @value value stop _ within =>
    have reached := length_run_le isBlank within
    rw [ok_bind, ok_bind]
    dsimp only
    rw [runEnd_eq isBlank (by omega), checked_ok, ok_bind, skipBlanks_ofPlace]
    generalize skipped : stop + (run chars isBlank stop).length = last at *
    -- The run of blanks ended at the end of the text or at a character that is not blank.
    cases there : chars[last]? with
    | none =>
      rw [if_neg (Nat.not_lt.mpr (List.getElem?_eq_none_iff.mp there)), if_pos (rest_of_none there)]
      exact .inl ⟨value, rfl, rfl⟩
    | some c =>
      have visible : isBlank c = false := by
        rw [← skipped] at there
        exact not_of_run_end there
      have left : (Cursor.ofPlace chars last).rest ≠ [] := by
        rw [rest_of_some there]
        exact List.cons_ne_nil _ _
      rw [if_pos (inside_of_some there), if_neg left, Places.slice_eq reached (Nat.le_refl _),
        List.take_of_length_le (Nat.le_of_eq List.length_drop), checked_ok, ok_bind]
      exact .inr ⟨_, truthful_trailingInput there visible, rfl, rfl⟩

theorem truthful_of_evaluate {source : String} {reason : Error}
    (refused : evaluate source = .error reason) : reason.Truthful (expression source.toList) := by
  obtain ⟨value, -, read⟩ | ⟨other, truthful, -, read⟩ := evaluate_cases source (Nat.lt_succ_self _)
  · rw [refused] at read
    cases read
  · rw [refused] at read
    cases read
    exact truthful

end agreement

/-- Every source is evaluated to the end: by places, with more than two steps for each character of
the expression, nothing outside of it is read. And what an error says of the expression is so. -/
theorem evaluate_points (source : String) :
    (∀ steps, 2 * (expression source.toList).length < steps →
      evaluateAt (expression source.toList) steps = (evaluate source).mapError .refused) ∧
    (∀ found offset, evaluate source = .error (.unexpected found offset) →
      (expression source.toList)[offset]? = some found) ∧
    (∀ offset, evaluate source = .error (.unterminatedString offset) →
      (expression source.toList)[offset]? = some '\'' ∨
        (expression source.toList)[offset]? = some '"' ∨
          (expression source.toList)[offset]? = some '\x60') ∧
    ∀ rest, evaluate source = .error (.trailingInput rest) →
      ∃ c tail, rest.toList = c :: tail ∧ isBlank c = false ∧
        rest.toList <:+ expression source.toList := by
  refine ⟨?_, ?_, ?_, ?_⟩
  · intro steps enough
    obtain ⟨value, placed, read⟩ | ⟨reason, -, placed, read⟩ := evaluate_cases source enough
    · rw [placed, read]
      rfl
    · rw [placed, read]
      rfl
  · intro found offset refused
    cases truthful_of_evaluate refused with
    | unexpected there => exact there
  · intro offset refused
    cases truthful_of_evaluate refused with
    | unterminatedString opens => exact opens
  · intro rest refused
    cases truthful_of_evaluate refused with
    | trailingInput visible starts ends => exact ⟨_, _, starts, visible, ends⟩

def reason? : Except Error Value → Option Error
  | .error reason => some reason
  | .ok _ => none

theorem eq_error_of_reason? {result : Except Error Value} {reason : Error}
    (found : reason? result = some reason) : result = .error reason := by
  cases result with
  | error other => exact congrArg Except.error (Option.some.inj found)
  | ok value => cases found

theorem evaluate_points_refused :
    (evaluate "['a', [ #]] as const" = .error (.unexpected '#' 8) ∧
      (expression "['a', [ #]] as const".toList)[8]? = some '#') ∧
    (evaluate "['a', \"b]" = .error (.unterminatedString 6) ∧
      ((expression "['a', \"b]".toList)[6]? = some '\'' ∨
        (expression "['a', \"b]".toList)[6]? = some '"' ∨
          (expression "['a', \"b]".toList)[6]? = some '\x60')) ∧
    evaluate "'a'  b c" = .error (.trailingInput "b c") ∧
      ∃ c tail, "b c".toList = c :: tail ∧ isBlank c = false ∧
        "b c".toList <:+ expression "'a'  b c".toList := by
  have unexpected : evaluate "['a', [ #]] as const" = .error (.unexpected '#' 8) :=
    eq_error_of_reason? (by decide +kernel)
  have unterminated : evaluate "['a', \"b]" = .error (.unterminatedString 6) :=
    eq_error_of_reason? (by decide +kernel)
  have trailing : evaluate "'a'  b c" = .error (.trailingInput "b c") :=
    eq_error_of_reason? (by decide +kernel)
  exact ⟨⟨unexpected, (evaluate_points _).2.1 _ _ unexpected⟩,
    ⟨unterminated, (evaluate_points _).2.2.1 _ unterminated⟩,
    trailing, (evaluate_points _).2.2.2 _ trailing⟩

end TypeLoom.Literal
