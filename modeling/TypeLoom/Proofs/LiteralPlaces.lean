import TypeLoom.Literal.Evaluate
import TypeLoom.Proofs.Places

/-! Evaluation of a literal by places. The readers here keep the whole text and a place in it. They
look at a character only where there is one, cut only inside of the text, and count their steps.
They are compared with the readers of what is left: either both find the same value and stop at the
same place, or both refuse the text for the same reason, and an offset in that reason is the place
of what it names. -/
namespace TypeLoom.Literal
open Text (isBlank)
open Places (Fault minus charAt slice ok_bind)

/-- Why a reading by places has no value: a fault of its own, or a text that is refused. -/
inductive Stop where
  | fault (cause : Fault)
  | refused (reason : Error)

def refuse {α : Type} (reason : Error) : Except Stop α := .error (.refused reason)

/-- A step that has faults but never refuses the text. -/
def checked {α : Type} (step : Except Fault α) : Except Stop α := step.mapError .fault

@[simp] theorem checked_ok {α : Type} (x : α) : checked (.ok x) = .ok x := rfl

section readers
variable (chars : List Char)

/-- The first place from `place` on without a character that satisfies `p`. -/
def runEnd (p : Char → Bool) : (steps place : Nat) → Except Fault Nat
  | 0, _ => .error .exhausted
  | steps + 1, place =>
    if (chars[place]?).any p then runEnd p steps (place + 1) else .ok place

def wordAt (steps place : Nat) : Except Stop (Value × Nat) := do
  let stop ← checked (runEnd chars isWordChar steps place)
  let word ← checked (slice chars place stop)
  (wordValue? (String.ofList word)).elim (refuse (.unsupported (String.ofList word)))
    fun value => .ok (value, stop)

def invalidAt (start stop : Nat) : Except Stop (Value × Nat) := do
  let text ← checked (slice chars start stop)
  refuse (.invalidNumber (String.ofList text))

def hexAt (start : Nat) (negative : Bool) (steps place : Nat) : Except Stop (Value × Nat) := do
  let stop ← checked (runEnd chars (fun d => isHexDigit d || d == '_') steps place)
  let run ← checked (slice chars place stop)
  let digits := run.filter (· ≠ '_')
  if digits = [] ∨ 0x8000000000000000 ≤ ofHexDigits digits then invalidAt chars start stop
  else .ok (.number (Double.nearest negative (ofHexDigits digits) 1), stop)

def Value.number? : Value → Option Double
  | .number x => some x
  | .null | .bool _ | .text _ | .array _ => none

def infinityAt (start : Nat) (negative : Bool) (steps place : Nat) : Except Stop (Value × Nat) := do
  let word ← wordAt chars steps place
  word.1.number?.elim (invalidAt chars start word.2) fun x =>
    if x.isInfinite then .ok (.number (if negative then x.neg else x), word.2)
    else invalidAt chars start word.2

def isExponentMark (c : Char) : Bool := c == 'e' || c == 'E'

def isDecimalChar (c : Char) : Bool := c.isDigit || c == '.' || c == '_' || isExponentMark c

def isSign (c : Char) : Bool := c == '+' || c == '-'

/-- The end of the text of a decimal number. A sign after an exponent mark is taken along. -/
def decimalEnd : (steps place : Nat) → Except Fault Nat
  | 0, _ => .error .exhausted
  | steps + 1, place =>
    if (chars[place]?).any isDecimalChar then do
      let c ← charAt chars place
      if isExponentMark c && (chars[place + 1]?).any isSign then decimalEnd steps (place + 2)
      else decimalEnd steps (place + 1)
    else .ok place

def decimalAt (start : Nat) (negative : Bool) (steps place : Nat) : Except Stop (Value × Nat) := do
  let stop ← checked (decimalEnd chars steps place)
  let text ← checked (slice chars place stop)
  (decimal? negative (text.filter (· ≠ '_'))).elim (invalidAt chars start stop)
    fun x => .ok (.number x, stop)

def unsignedAt (start : Nat) (negative : Bool) (steps place : Nat) : Except Stop (Value × Nat) :=
  if chars[place]? = some '0' ∧ (chars[place + 1]? = some 'x' ∨ chars[place + 1]? = some 'X') then
    hexAt chars start negative steps (place + 2)
  else if chars[place]? = some 'I' then infinityAt chars start negative steps place
  else decimalAt chars start negative steps place

def numberAt (steps start : Nat) : Except Stop (Value × Nat) :=
  unsignedAt chars start (chars[start]? == some '-') steps
    (if chars[start]? = some '-' ∨ chars[start]? = some '+' then start + 1 else start)

def hexEscapeAt (blame : Char) (width place : Nat) : Except Stop (Char × Nat) :=
  if chars.length < place + width then refuse (.invalidEscape 'x')
  else do
    let code ← checked (slice chars place (place + width))
    (charOfHex? code).elim (refuse (.invalidEscape blame)) fun c => .ok (c, place + width)

def bracedEscapeAt (steps place : Nat) : Except Stop (Char × Nat) := do
  let stop ← checked (runEnd chars (· ≠ '\x7d') steps place)
  let code ← checked (slice chars place stop)
  if chars[stop]? = some '\x7d' then
    (charOfHex? code).elim (refuse (.invalidEscape 'u')) fun c => .ok (c, stop + 1)
  else refuse (.invalidEscape 'u')

/-- The escape whose backslash is before `place`, in a string that began at `start`. -/
def escapeAt (start steps place : Nat) : Except Stop (Char × Nat) :=
  (chars[place]?).elim (refuse (.unterminatedString start)) fun c =>
    if c = 'x' then hexEscapeAt chars 'x' 2 (place + 1)
    else if c = 'u' then
      if chars[place + 1]? = some '\x7b' then bracedEscapeAt chars steps (place + 2)
      else hexEscapeAt chars 'u' 4 (place + 1)
    else (letterEscape? c).elim (refuse (.invalidEscape c)) fun escaped => .ok (escaped, place + 1)

def quotedAt (quote : Char) (start : Nat) : (steps place : Nat) → Except Stop (List Char × Nat)
  | 0, _ => .error (.fault .exhausted)
  | steps + 1, place =>
    (chars[place]?).elim (refuse (.unterminatedString start)) fun c =>
      if c = quote then .ok ([], place + 1)
      else if c = '\\' then do
        let escape ← escapeAt chars start (steps + 1) (place + 1)
        let rest ← quotedAt quote start steps escape.2
        .ok (escape.1 :: rest.1, rest.2)
      else if c = '\n' then refuse (.unterminatedString start)
      else do
        let rest ← quotedAt quote start steps (place + 1)
        .ok (c :: rest.1, rest.2)

def templateAt (start : Nat) : (steps place : Nat) → Except Stop (List Char × Nat)
  | 0, _ => .error (.fault .exhausted)
  | steps + 1, place =>
    (chars[place]?).elim (refuse (.unterminatedString start)) fun c =>
      if c = '\x60' then .ok ([], place + 1)
      else if c = '$' ∧ chars[place + 1]? = some '\x7b' then refuse .interpolation
      else if c = '\\' then do
        let escape ← escapeAt chars start (steps + 1) (place + 1)
        let rest ← templateAt start steps escape.2
        .ok (escape.1 :: rest.1, rest.2)
      else do
        let rest ← templateAt start steps (place + 1)
        .ok (c :: rest.1, rest.2)

def textAt (body : (steps place : Nat) → Except Stop (List Char × Nat)) (steps start : Nat) :
    Except Stop (Value × Nat) := do
  let inside ← body steps (start + 1)
  .ok (.text (String.ofList inside.1), inside.2)

/-- What stands behind an item, where `items` reads more of them. It is passed before it is looked
at, so a refusal goes one place back. -/
def behindAt (items : Nat → Except Stop (List Value × Nat)) (item : Value) (steps place : Nat) :
    Except Stop (List Value × Nat) := do
  let stop ← checked (runEnd chars isBlank steps place)
  (chars[stop]?).elim (refuse .unterminatedArray) fun found =>
    if found = ',' then do
      let others ← items (stop + 1)
      .ok (item :: others.1, others.2)
    else if found = ']' then .ok ([item], stop + 1)
    else do
      let offset ← checked (minus (stop + 1) 1)
      refuse (.unexpected found offset)

mutual

def valueAt : (steps place : Nat) → Except Stop (Value × Nat)
  | 0, _ => .error (.fault .exhausted)
  | steps + 1, place => do
    let place ← checked (runEnd chars isBlank (steps + 1) place)
    (chars[place]?).elim (refuse .empty) fun found =>
      if found = '\'' ∨ found = '"' then textAt (quotedAt chars found place) (steps + 1) place
      else if found = '\x60' then textAt (templateAt chars place) (steps + 1) place
      else if found = '[' then do
        let items ← itemsAt steps (place + 1)
        .ok (.array items.1, items.2)
      else if found.isDigit || found == '-' || found == '+' || found == '.' then
        numberAt chars (steps + 1) place
      else if Text.isAlphabetic found || found == '_' || found == '$' then
        wordAt chars (steps + 1) place
      else refuse (.unexpected found place)

def itemsAt : (steps place : Nat) → Except Stop (List Value × Nat)
  | 0, _ => .error (.fault .exhausted)
  | steps + 1, place => do
    let place ← checked (runEnd chars isBlank (steps + 1) place)
    (chars[place]?).elim (refuse .unterminatedArray) fun first =>
      if first = ']' then .ok ([], place + 1)
      else do
        let item ← valueAt steps place
        behindAt chars (itemsAt steps) item.1 (steps + 1) item.2

end

def evaluateAt (steps : Nat) : Except Stop Value := do
  let value ← valueAt chars steps 0
  let stop ← checked (runEnd chars isBlank steps value.2)
  if stop < chars.length then do
    let rest ← checked (slice chars stop chars.length)
    refuse (.trailingInput (String.ofList rest))
  else .ok value.1

end readers

section runs
variable {chars : List Char} {place : Nat}

theorem inside_of_some {c : Char} (there : chars[place]? = some c) : place < chars.length :=
  (List.getElem?_eq_some_iff.mp there).1

theorem drop_of_some {c : Char} (there : chars[place]? = some c) :
    chars.drop place = c :: chars.drop (place + 1) := by
  obtain ⟨inside, rfl⟩ := List.getElem?_eq_some_iff.mp there
  exact List.drop_eq_getElem_cons inside

theorem drop_of_none (ended : chars[place]? = none) : chars.drop place = [] :=
  List.drop_eq_nil_of_le (List.getElem?_eq_none_iff.mp ended)

def run (chars : List Char) (p : Char → Bool) (place : Nat) : List Char :=
  (chars.drop place).takeWhile p

theorem length_run_le (p : Char → Bool) (within : place ≤ chars.length) :
    place + (run chars p place).length ≤ chars.length := by
  have short := (List.takeWhile_prefix (l := chars.drop place) p).length_le
  rw [List.length_drop] at short
  rw [run]
  omega

theorem runEnd_eq (p : Char → Bool) {steps : Nat} (enough : chars.length - place < steps) :
    runEnd chars p steps place = .ok (place + (run chars p place).length) := by
  induction steps generalizing place with
  | zero => exact absurd enough (Nat.not_lt_zero _)
  | succ steps ih =>
    rw [runEnd, run]
    cases there : chars[place]? with
    | none =>
      rw [drop_of_none there]
      rfl
    | some c =>
      have inside := inside_of_some there
      rw [drop_of_some there, Option.any_some]
      cases holds : p c with
      | false =>
        rw [List.takeWhile_cons_of_neg (by simp [holds])]
        rfl
      | true =>
        rw [if_pos rfl, ih (by omega), List.takeWhile_cons_of_pos holds, List.length_cons, run]
        congr 1
        omega

theorem slice_run (p : Char → Bool) (within : place ≤ chars.length) :
    slice chars place (place + (run chars p place).length) = .ok (run chars p place) := by
  rw [Places.slice_eq (Nat.le_add_right _ _) (length_run_le p within), Nat.add_sub_cancel_left]
  exact congrArg Except.ok (List.prefix_iff_eq_take.mp (List.takeWhile_prefix p)).symm

theorem drop_run (p : Char → Bool) :
    chars.drop (place + (run chars p place).length) = (chars.drop place).dropWhile p := by
  have parts := @List.takeWhile_append_dropWhile _ p (chars.drop place)
  rw [← List.drop_drop]
  calc (chars.drop place).drop (run chars p place).length
      = (run chars p place ++ (chars.drop place).dropWhile p).drop (run chars p place).length := by
        rw [run, parts]
    _ = (chars.drop place).dropWhile p := List.drop_left

theorem not_of_run_end {p : Char → Bool} {c : Char}
    (there : chars[place + (run chars p place).length]? = some c) : p c = false := by
  have stops := List.head?_dropWhile_not p (chars.drop place)
  rw [← drop_run, List.head?_drop, there] at stops
  exact stops

end runs

def Cursor.ofPlace (chars : List Char) (place : Nat) : Cursor := ⟨place, chars.drop place⟩

/-- What a reason says of the text is so. Only some reasons speak of places. -/
inductive Error.Truthful (chars : List Char) : Error → Prop
  | empty : Truthful chars .empty
  | unexpected {found : Char} {offset : Nat} (there : chars[offset]? = some found) :
    Truthful chars (.unexpected found offset)
  | unterminatedString {offset : Nat} (opens : chars[offset]? = some '\'' ∨
      chars[offset]? = some '"' ∨ chars[offset]? = some '\x60') :
    Truthful chars (.unterminatedString offset)
  | interpolation : Truthful chars .interpolation
  | invalidEscape (escape : Char) : Truthful chars (.invalidEscape escape)
  | invalidNumber (text : String) : Truthful chars (.invalidNumber text)
  | unterminatedArray : Truthful chars .unterminatedArray
  | unsupported (word : String) : Truthful chars (.unsupported word)
  | trailingInput {rest : String} {c : Char} {tail : List Char} (visible : isBlank c = false)
      (starts : rest.toList = c :: tail) (ends : rest.toList <:+ chars) :
    Truthful chars (.trailingInput rest)

/-- A reading by places from `start` on and a reading of what is left do the same. What is left at a
place is told by `left`. -/
inductive Agree (chars : List Char) (start : Nat) {α β : Type} (left : Nat → β) :
    Except Stop (α × Nat) → Except Error (α × β) → Prop
  | value {x : α} {place : Nat} (later : start ≤ place) (within : place ≤ chars.length) :
    Agree chars start left (.ok (x, place)) (.ok (x, left place))
  | refusal {reason : Error} (truthful : reason.Truthful chars) :
    Agree chars start left (refuse reason) (.error reason)

section agreement
variable {chars : List Char}

theorem Agree.bind {start begun : Nat} {α β γ δ : Type} {left : Nat → β} {after : Nat → δ}
    {placed : Except Stop (α × Nat)} {read : Except Error (α × β)}
    {next : α × Nat → Except Stop (γ × Nat)} {follow : α × β → Except Error (γ × δ)}
    (agree : Agree chars start left placed read)
    (continues : ∀ x place, start ≤ place → place ≤ chars.length →
      Agree chars begun after (next (x, place)) (follow (x, left place))) :
    Agree chars begun after (placed >>= next) (read >>= follow) := by
  cases agree with
  | value later within => exact continues _ _ later within
  | refusal truthful => exact .refusal truthful

theorem Agree.earlier {start begun : Nat} {α β : Type} {left : Nat → β}
    {placed : Except Stop (α × Nat)} {read : Except Error (α × β)} (before : begun ≤ start)
    (agree : Agree chars start left placed read) : Agree chars begun left placed read := by
  cases agree with
  | value later within => exact .value (Nat.le_trans before later) within
  | refusal truthful => exact .refusal truthful

theorem Agree.ite {start : Nat} {α β : Type} {left : Nat → β} {test : Prop} [Decidable test]
    {placed other : Except Stop (α × Nat)} {read otherwise : Except Error (α × β)}
    (passed : test → Agree chars start left placed read)
    (failed : ¬test → Agree chars start left other otherwise) :
    Agree chars start left (if test then placed else other) (if test then read else otherwise) := by
  by_cases holds : test
  · rw [if_pos holds, if_pos holds]
    exact passed holds
  · rw [if_neg holds, if_neg holds]
    exact failed holds

section cursors
variable {place : Nat}

theorem head?_ofPlace : (Cursor.ofPlace chars place).rest.head? = chars[place]? := List.head?_drop

theorem rest_of_some {c : Char} (there : chars[place]? = some c) :
    (Cursor.ofPlace chars place).rest = c :: chars.drop (place + 1) := drop_of_some there

theorem rest_of_none (ended : chars[place]? = none) : (Cursor.ofPlace chars place).rest = [] :=
  drop_of_none ended

end cursors

theorem advance_ofPlace (place count : Nat) :
    (Cursor.ofPlace chars place).advance count = Cursor.ofPlace chars (place + count) := by
  rw [Cursor.ofPlace, Cursor.advance, List.drop_drop]
  rfl

theorem span_ofPlace (p : Char → Bool) (place : Nat) : (Cursor.ofPlace chars place).span p =
    (run chars p place, Cursor.ofPlace chars (place + (run chars p place).length)) := by
  rw [← advance_ofPlace]
  rfl

theorem skipBlanks_ofPlace (place : Nat) : (Cursor.ofPlace chars place).skipBlanks =
    Cursor.ofPlace chars (place + (run chars isBlank place).length) := by
  rw [← advance_ofPlace]
  rfl

section numbers
variable {steps place : Nat} (within : place ≤ chars.length)
  (enough : chars.length - place < steps)
include within enough

theorem agree_word : Agree chars place (Cursor.ofPlace chars) (wordAt chars steps place)
    (readWord (Cursor.ofPlace chars place)) := by
  rw [wordAt, runEnd_eq _ enough, checked_ok, ok_bind, slice_run _ within, checked_ok, ok_bind,
    readWord, span_ofPlace]
  dsimp only
  cases wordValue? (String.ofList (run chars isWordChar place)) with
  | none => exact .refusal (.unsupported _)
  | some value => exact .value (Nat.le_add_right _ _) (length_run_le _ within)

omit within enough in
theorem agree_invalid {start stop : Nat} (ordered : start ≤ stop) (inside : stop ≤ chars.length) :
    Agree chars start (Cursor.ofPlace chars) (invalidAt chars start stop)
      (.error (.invalidNumber
        (textBetween (Cursor.ofPlace chars start) (Cursor.ofPlace chars stop)))) := by
  rw [invalidAt, Places.slice_eq ordered inside, checked_ok, ok_bind]
  exact .refusal (.invalidNumber _)

theorem agree_hex {start : Nat} (before : start ≤ place) (negative : Bool) :
    Agree chars start (Cursor.ofPlace chars) (hexAt chars start negative steps place)
      (readHex (Cursor.ofPlace chars start) negative (Cursor.ofPlace chars place)) := by
  have later : start ≤ place + (run chars (fun d => isHexDigit d || d == '_') place).length := by
    omega
  have inside := length_run_le (fun d => isHexDigit d || d == '_') within
  rw [hexAt, runEnd_eq _ enough, checked_ok, ok_bind, slice_run _ within, checked_ok, ok_bind,
    readHex, span_ofPlace]
  dsimp only
  exact .ite (fun _ => agree_invalid later inside) fun _ => .value later inside

theorem agree_infinity {start : Nat} (before : start ≤ place) (negative : Bool) :
    Agree chars start (Cursor.ofPlace chars) (infinityAt chars start negative steps place)
      (readInfinity (Cursor.ofPlace chars start) negative (Cursor.ofPlace chars place)) := by
  rw [infinityAt, readInfinity]
  refine (agree_word within enough).bind fun value stop later inside => ?_
  have ordered : start ≤ stop := Nat.le_trans before later
  cases value with
  | number x => exact .ite (fun _ => .value ordered inside) fun _ => agree_invalid ordered inside
  | null | bool _ | text _ | array _ => exact agree_invalid ordered inside

omit within enough in
theorem decimalLength_cons (c : Char) (rest : List Char) : decimalLength (c :: rest) =
    if isDecimalChar c then
      if isExponentMark c && rest.head?.any isSign then decimalLength (rest.drop 1) + 2
      else decimalLength rest + 1
    else 0 := by
  cases rest with
  | nil =>
    rw [decimalLength, List.head?_nil, Option.any_none, Bool.and_false, isDecimalChar,
      isExponentMark, ← Bool.or_assoc]
    rfl
  | cons d rest =>
    rw [decimalLength, List.head?_cons, Option.any_some, isDecimalChar]
    cases mark : isExponentMark c with
    | true =>
      rw [isExponentMark] at mark
      rw [mark, Bool.or_true, Bool.true_and]
      rfl
    | false =>
      rw [isExponentMark] at mark
      rw [mark, Bool.or_false, Bool.false_and]
      rfl

omit within in
theorem decimalEnd_eq :
    decimalEnd chars steps place = .ok (place + decimalLength (chars.drop place)) := by
  induction steps generalizing place with
  | zero => exact absurd enough (Nat.not_lt_zero _)
  | succ steps ih =>
    rw [decimalEnd]
    cases there : chars[place]? with
    | none =>
      rw [drop_of_none there]
      rfl
    | some c =>
      have inside := inside_of_some there
      rw [drop_of_some there, decimalLength_cons, List.head?_drop, List.drop_drop, Option.any_some,
        charAt, there, Option.elim_some, ok_bind]
      by_cases decimal : isDecimalChar c = true
      · rw [if_pos decimal, if_pos decimal]
        by_cases signed : (isExponentMark c && (chars[place + 1]?).any isSign) = true
        · rw [if_pos signed, if_pos signed, ih (by omega), Nat.add_assoc, Nat.add_comm 2]
        · rw [if_neg signed, if_neg signed, ih (by omega), Nat.add_assoc, Nat.add_comm 1]
      · rw [if_neg decimal, if_neg decimal, Nat.add_zero]

omit within enough in
theorem decimalLength_le (text : List Char) : decimalLength text ≤ text.length := by
  fun_induction decimalLength text with
  | case1 => exact Nat.le_refl _
  | case2 => exact Nat.le_refl _
  | case3 => exact Nat.zero_le _
  | case4 c d rest _ _ ih => exact Nat.add_le_add_right ih 2
  | case5 c d rest _ _ ih => exact Nat.add_le_add_right ih 1
  | case6 c d rest _ _ ih => exact Nat.add_le_add_right ih 1
  | case7 => exact Nat.zero_le _

theorem agree_decimal {start : Nat} (before : start ≤ place) (negative : Bool) :
    Agree chars start (Cursor.ofPlace chars) (decimalAt chars start negative steps place)
      (readDecimal (Cursor.ofPlace chars start) negative (Cursor.ofPlace chars place)) := by
  have short := decimalLength_le (chars.drop place)
  rw [List.length_drop] at short
  have later : start ≤ place + decimalLength (chars.drop place) := by omega
  have inside : place + decimalLength (chars.drop place) ≤ chars.length := by omega
  rw [decimalAt, decimalEnd_eq enough, checked_ok, ok_bind,
    Places.slice_eq (Nat.le_add_right _ _) inside, Nat.add_sub_cancel_left, checked_ok, ok_bind,
    readDecimal, advance_ofPlace]
  dsimp only [Cursor.ofPlace]
  cases decimal? negative (((chars.drop place).take (decimalLength (chars.drop place))).filter
    (· ≠ '_')) with
  | none => exact agree_invalid later inside
  | some x => exact .value later inside

omit within enough in
theorem head?_ne_some {text : List Char} {c : Char} (other : ∀ tail, text = c :: tail → False) :
    text.head? ≠ some c := by
  intro first
  obtain ⟨tail, begins⟩ := List.head?_eq_some_iff.mp first
  exact other tail begins

/-- A number behind its sign, told from its first two characters. -/
def readUnsigned (start : Cursor) (negative : Bool) (c : Cursor) : Except Error (Value × Cursor) :=
  if c.rest.head? = some '0' ∧ (c.rest[1]? = some 'x' ∨ c.rest[1]? = some 'X') then
    readHex start negative (c.advance 2)
  else if c.rest.head? = some 'I' then readInfinity start negative c
  else readDecimal start negative c

omit within enough in
theorem readNumber_eq (start : Cursor) : readNumber start =
    readUnsigned start (start.rest.head? == some '-')
      (if start.rest.head? = some '-' ∨ start.rest.head? = some '+' then start.advance 1
        else start) := by
  rw [readNumber]
  split
  rename_i negative c signed
  have sign : negative = (start.rest.head? == some '-') ∧
      c = if start.rest.head? = some '-' ∨ start.rest.head? = some '+' then start.advance 1
        else start := by
    split at signed
    · rename_i minus
      cases signed
      rw [minus]
      exact ⟨rfl, rfl⟩
    · rename_i plus
      cases signed
      rw [plus]
      exact ⟨rfl, rfl⟩
    · rename_i unsigned positive
      cases signed
      have no_minus := head?_ne_some unsigned
      have no_plus := head?_ne_some positive
      exact ⟨(beq_eq_false_iff_ne.mpr no_minus).symm,
        (if_neg (not_or.mpr ⟨no_minus, no_plus⟩)).symm⟩
  rw [← sign.1, ← sign.2, readUnsigned]
  split
  · rename_i begins
    rw [begins]
    rfl
  · rename_i begins
    rw [begins]
    rfl
  · rename_i begins
    rw [begins]
    rfl
  · rename_i lower upper infinite
    have no_hex : ¬(c.rest.head? = some '0' ∧ (c.rest[1]? = some 'x' ∨ c.rest[1]? = some 'X')) := by
      rintro ⟨zero, second⟩
      obtain ⟨tail, begins⟩ := List.head?_eq_some_iff.mp zero
      rw [begins, List.getElem?_cons_succ, ← List.head?_eq_getElem?] at second
      obtain second | second := second
      · obtain ⟨digits, rfl⟩ := List.head?_eq_some_iff.mp second
        exact lower digits begins
      · obtain ⟨digits, rfl⟩ := List.head?_eq_some_iff.mp second
        exact upper digits begins
    rw [if_neg no_hex, if_neg (head?_ne_some infinite)]

theorem agree_unsigned {start : Nat} (before : start ≤ place) (negative : Bool) :
    Agree chars start (Cursor.ofPlace chars) (unsignedAt chars start negative steps place)
      (readUnsigned (Cursor.ofPlace chars start) negative (Cursor.ofPlace chars place)) := by
  have second : (Cursor.ofPlace chars place).rest[1]? = chars[place + 1]? := List.getElem?_drop
  rw [unsignedAt, readUnsigned, head?_ofPlace, second, advance_ofPlace]
  refine .ite (fun hex => ?_) fun _ => .ite (fun _ => agree_infinity within enough before negative)
    fun _ => agree_decimal within enough before negative
  have inside : place + 1 < chars.length := hex.2.elim inside_of_some inside_of_some
  exact agree_hex inside (by omega) (by omega) negative

theorem agree_number : Agree chars place (Cursor.ofPlace chars) (numberAt chars steps place)
    (readNumber (Cursor.ofPlace chars place)) := by
  rw [numberAt, readNumber_eq, head?_ofPlace, advance_ofPlace, ← apply_ite]
  by_cases signed : chars[place]? = some '-' ∨ chars[place]? = some '+'
  · have inside : place < chars.length := signed.elim inside_of_some inside_of_some
    rw [if_pos signed]
    exact agree_unsigned inside (by omega) (Nat.le_succ place) _
  · rw [if_neg signed]
    exact agree_unsigned within enough (Nat.le_refl place) _

end numbers

end agreement

end TypeLoom.Literal
