import TypeLoom.Code.Print
import TypeLoom.Proofs.Lexing

/-! The lexer reads a printed file as what was set into it: one literal for each string, one comment
for each line of a comment, and nothing else, if every text fits into its place. -/
namespace TypeLoom.Code

/-! ### Texts set into a file -/

inductive Inset where
  /-- The value of a string literal. -/
  | literal (value : String)
  /-- The text of a doc comment. -/
  | summary (comment : String)
  /-- A line of the header. -/
  | remark (line : String)

/-- The tokens that a text is to be read as. -/
def Inset.tokens : Inset → List Token
  | literal value => [.literal (escapeChars value.toList)]
  | summary comment =>
    .comment "/ <summary>".toList ::
      ((Text.lines comment.toList).map (Token.comment ∘ commentText) ++
        [.comment "/ </summary>".toList])
  | remark line => [.comment (if line.isEmpty then [] else ' ' :: line.toList)]

/-- A literal has no separator, and a comment no line end inside a line. -/
def Inset.Fits : Inset → Prop
  | literal value => ∀ c ∈ value.toList, isSeparator c = false
  | summary comment =>
    ∀ line ∈ Text.lines comment.toList, ∀ c ∈ Text.trimEnd line, endsLine c = false
  | remark line => ∀ c ∈ line.toList, endsLine c = false

instance : DecidablePred Inset.Fits
  | .literal _ => List.decidableBAll _ _
  | .summary _ =>
    have (line : List Char) : Decidable (∀ c ∈ Text.trimEnd line, endsLine c = false) :=
      List.decidableBAll _ _
    List.decidableBAll _ _
  | .remark _ => List.decidableBAll _ _

theorem inside_escapeXmlChars (text : List Char) :
    (∀ c ∈ escapeXmlChars text, endsLine c = false) ↔ ∀ c ∈ text, endsLine c = false := by
  rw [escapeXmlChars, List.forall_mem_flatMap]
  constructor
  · intro inside c member
    rw [← Bool.not_eq_true]
    intro ends
    have own := inside c member c (by simp [escapeXmlChar_of_endsLine ends])
    rw [ends] at own
    cases own
  · exact fun inside c member => escapeXmlChar_inside (inside c member)

theorem inside_commentText (line : List Char) :
    (∀ c ∈ commentText line, endsLine c = false) ↔ ∀ c ∈ Text.trimEnd line, endsLine c = false := by
  by_cases none : Text.trimEnd line = []
  · rw [commentText_of_blank none, none]
    simp [endsLine, isSeparator]
  · have slash : endsLine '/' = false := by decide
    have blank : endsLine ' ' = false := by decide
    rw [commentText_of_shown none, List.forall_mem_cons, List.forall_mem_cons,
      inside_escapeXmlChars]
    simp [slash, blank]

theorem inside_escapeChars (text : List Char) :
    (∀ c ∈ escapeChars text, endsLine c = false) ↔ ∀ c ∈ text, isSeparator c = false := by
  have same := filter_endsLine_escapeChars text
  simp only [← Bool.not_eq_true, ← List.filter_eq_nil_iff, same]

theorem Inset.fits_iff (inset : Inset) :
    inset.Fits ↔ ∀ token ∈ inset.tokens, ∀ c ∈ token.text, endsLine c = false := by
  cases inset with
  | literal value =>
    rw [tokens, List.forall_mem_singleton]
    exact (inside_escapeChars value.toList).symm
  | summary comment =>
    have opening : ∀ c ∈ "/ <summary>".toList, endsLine c = false := inside_of_all (by decide)
    have closing : ∀ c ∈ "/ </summary>".toList, endsLine c = false := inside_of_all (by decide)
    rw [tokens, List.forall_mem_cons, List.forall_mem_append, List.forall_mem_map,
      List.forall_mem_singleton]
    simp only [Function.comp_apply, Token.text, inside_commentText]
    exact ⟨fun fits => ⟨opening, fits, closing⟩, fun fits => fits.2.1⟩
  | remark line =>
    rw [tokens, List.forall_mem_singleton, Fits, Token.text]
    have blank : endsLine ' ' = false := by decide
    by_cases empty : line.isEmpty = true
    · rw [String.isEmpty_iff.mp empty]
      simp
    · rw [if_neg empty, List.forall_mem_cons]
      simp [blank]

/-! ### What a text shows -/

/-- If the insets fit, the lexer reads the text as them and is in code afterwards. -/
def Shows (text : String) (insets : List Inset) : Prop :=
  (∀ inset ∈ insets, inset.Fits) →
    ∀ rest, lex (text.toList ++ rest) = insets.flatMap Inset.tokens ++ lex rest

theorem Shows.lex_eq {text : String} {insets : List Inset} (shown : Shows text insets)
    (fits : ∀ inset ∈ insets, inset.Fits) : lex text.toList = insets.flatMap Inset.tokens := by
  have read := shown fits []
  rw [List.append_nil, lex_nil, List.append_nil] at read
  exact read

/-- Text of nothing but code. -/
abbrev Inert (text : String) : Prop := Shows text []

theorem Shows.append {a b : String} {as bs : List Inset} (first : Shows a as)
    (second : Shows b bs) : Shows (a ++ b) (as ++ bs) := by
  intro fits rest
  rw [List.forall_mem_append] at fits
  rw [String.toList_append, List.append_assoc, first fits.1, second fits.2, List.flatMap_append,
    List.append_assoc]

theorem Shows.inert_append {a b : String} {bs : List Inset} (first : Inert a)
    (second : Shows b bs) : Shows (a ++ b) bs := first.append second

theorem Shows.append_inert {a b : String} {as : List Inset} (first : Shows a as)
    (second : Inert b) : Shows (a ++ b) as := List.append_nil as ▸ first.append second

theorem inert_ofList {text : List Char} (plain : text.all isPlain = true) :
    Inert (String.ofList text) := by
  intro _ rest
  rw [String.toList_ofList, lex_append_plain (List.all_eq_true.mp plain)]
  rfl

theorem inert_empty : Inert "" := fun _ _ => rfl

theorem inert_blank : Inert " " := inert_ofList (by decide)

theorem inert_comma : Inert ", " := inert_ofList (by decide)

theorem inert_equals : Inert " = " := inert_ofList (by decide)

theorem inert_feed : Inert "\n" := inert_ofList (by decide)

theorem inert_blankLine : Inert "\n\n" := inert_ofList (by decide)

theorem inert_ite {p : Prop} [Decidable p] {a b : String} (yes : Inert a) (no : Inert b) :
    Inert (if p then a else b) := by
  split_ifs
  · exact yes
  · exact no

theorem shows_elim {α : Type} {print : α → String} {insets : α → List Inset} {part : Option α}
    (shown : ∀ a ∈ part, Shows (print a) (insets a)) :
    Shows (part.elim "" print) (part.toList.flatMap insets) := by
  cases part with
  | none => exact inert_empty
  | some a => simpa using shown a rfl

theorem shows_stringLiteral (value : String) : Shows (stringLiteral value) [.literal value] := by
  intro fits rest
  have read := lex_literal (List.forall_mem_singleton.mp fits) rest
  simpa [stringLiteral, escape, Inset.tokens] using read

theorem lex_flatMap_commentLine {lines : List (List Char)}
    (fits : ∀ line ∈ lines, ∀ c ∈ Text.trimEnd line, endsLine c = false) (rest : List Char) :
    lex (lines.flatMap commentLine ++ rest) =
      lines.map (Token.comment ∘ commentText) ++ lex rest := by
  induction lines with
  | nil => rfl
  | cons line lines ih =>
    rw [List.forall_mem_cons] at fits
    have first := lex_comment ((inside_commentText line).mpr fits.1)
    rw [List.flatMap_cons, commentLine_eq, List.append_assoc, List.append_assoc,
      List.singleton_append, first, ih fits.2]
    rfl

theorem shows_docComment (comment : String) : Shows (docComment comment) [.summary comment] := by
  intro fits rest
  have body := lex_flatMap_commentLine (List.forall_mem_singleton.mp fits)
  have parts : (docComment comment).toList ++ rest = '/' :: '/' :: "/ <summary>".toList ++
      '\n' :: ((Text.lines comment.toList).flatMap commentLine ++
        ('/' :: '/' :: "/ </summary>".toList ++ '\n' :: rest)) := by
    simp only [toList_docComment, List.append_assoc, List.cons_append, List.nil_append]
  rw [parts, lex_comment (inside_of_all (by decide)), body, lex_comment (inside_of_all (by decide))]
  simp [Inset.tokens]

theorem shows_optionalDocComment (comment : Option String) :
    Shows (optionalDocComment comment) (comment.toList.map .summary) := by
  cases comment with
  | none => exact inert_empty
  | some comment => exact shows_docComment comment

theorem shows_join {α : Type} {print : α → String} {insets : α → List Inset} {items : List α}
    (shown : ∀ item ∈ items, Shows (print item) (insets item)) :
    Shows (String.join (items.map print)) (items.flatMap insets) := by
  induction items with
  | nil => exact inert_empty
  | cons item rest ih =>
    rw [List.forall_mem_cons] at shown
    rw [List.map_cons, String.join_cons, List.flatMap_cons]
    exact shown.1.append (ih shown.2)

theorem shows_intercalate_cons {separator first : String} {texts : List String}
    {as bs : List Inset} (inert : Inert separator) (head : Shows first as)
    (rest : Shows (separator.intercalate texts) bs) :
    Shows (separator.intercalate (first :: texts)) (as ++ bs) := by
  cases texts with
  | nil =>
    have both := head.append rest
    rw [String.intercalate_nil, String.append_empty] at both
    rw [String.intercalate_singleton]
    exact both
  | cons next texts =>
    rw [String.intercalate_cons_cons]
    exact (head.append_inert inert).append rest

theorem shows_intercalate {separator : String} (inert : Inert separator) {α : Type}
    {print : α → String} {insets : α → List Inset} {items : List α}
    (shown : ∀ item ∈ items, Shows (print item) (insets item)) :
    Shows (separator.intercalate (items.map print)) (items.flatMap insets) := by
  induction items with
  | nil => exact inert_empty
  | cons item rest ih =>
    rw [List.forall_mem_cons] at shown
    exact shows_intercalate_cons inert shown.1 (ih shown.2)

theorem Shows.inert {α : Type} {text : String} {items : List α}
    (shown : Shows text (items.flatMap fun _ => [])) : Inert text := by
  have none : items.flatMap (fun _ => ([] : List Inset)) = [] := by simp
  rwa [none] at shown

theorem inert_intercalate {separator : String} (inert : Inert separator) {texts : List String}
    (parts : ∀ text ∈ texts, Inert text) : Inert (separator.intercalate texts) := by
  have shown : Shows (separator.intercalate (texts.map id)) (texts.flatMap fun _ => []) :=
    shows_intercalate inert parts
  rw [List.map_id] at shown
  exact shown.inert

theorem Shows.indent {text : String} {insets : List Inset} (shown : Shows text insets)
    (levels : Nat) : Shows (indent text levels ++ "\n") insets := by
  intro fits rest
  have feed : "\n".toList = ['\n'] := by decide
  rw [String.toList_append, List.append_assoc, feed, List.singleton_append, lex_append_feed,
    lex_indent, shown.lex_eq fits]

theorem Shows.looseBlock {text : String} {insets : List Inset} (shown : Shows text insets) :
    Shows (looseBlock text) insets := by
  have opening : Inert "\x7b\n" := inert_ofList (by decide)
  have closing : Inert "\x7d" := inert_ofList (by decide)
  have split : "\n\x7d" = "\n" ++ "\x7d" := by decide
  have parts := (opening.inert_append (shown.indent 1)).append_inert closing
  rw [Code.looseBlock, split]
  simpa only [String.append_assoc] using parts

/-! ### Types and values -/

/-- A type whose names are code. -/
inductive TypeRef.Clean : TypeRef → Prop
  | named {name : String} {arguments : List TypeRef} (inert : Inert name)
      (clean : ∀ argument ∈ arguments, argument.Clean) : (TypeRef.named name arguments).Clean
  | array {element : TypeRef} (clean : element.Clean) : (TypeRef.array element).Clean

theorem printTypes_eq (types : List TypeRef) : printTypes types = types.map TypeRef.print := by
  induction types with
  | nil => rfl
  | cons type rest ih => rw [printTypes, ih, List.map_cons]

theorem inert_withArguments {name : String} {arguments : List String} (inert : Inert name)
    (clean : ∀ argument ∈ arguments, Inert argument) : Inert (withArguments name arguments) := by
  have opening : Inert "<" := inert_ofList (by decide)
  have closing : Inert ">" := inert_ofList (by decide)
  cases arguments with
  | nil => exact inert
  | cons first rest =>
    exact ((inert.append opening).append (inert_intercalate inert_comma clean)).append closing

theorem TypeRef.Clean.inert {type : TypeRef} (clean : type.Clean) : Inert type.print := by
  induction clean with
  | named inert clean ih =>
    rw [TypeRef.print, printTypes_eq]
    exact inert_withArguments inert (List.forall_mem_map.mpr ih)
  | array clean ih =>
    have brackets : Inert "[]" := inert_ofList (by decide)
    rw [TypeRef.print]
    exact ih.append brackets

theorem isPlain_of_isDigit {c : Char} (digit : c.isDigit = true) : isPlain c = true :=
  isPlain_of (p := Char.isDigit) (by decide) digit

theorem inert_toString (n : Nat) : Inert (toString n) := by
  rw [Nat.toString_eq_ofList_toDigits]
  refine inert_ofList (List.all_eq_true.mpr fun c member => isPlain_of_isDigit ?_)
  exact Nat.isDigit_of_mem_toDigits (by decide) (by decide) member

theorem inert_toString_int (n : Int) : Inert (toString n) := by
  have minus : Inert "-" := inert_ofList (by decide)
  cases n with
  | ofNat n => exact inert_toString n
  | negSucc n => exact minus.append (inert_toString (n + 1))

theorem Double.isPlain_positional (d : Double.Decimal) :
    ∀ c ∈ d.positional, isPlain c = true := by
  have digits : ∀ c ∈ Nat.toDigits 10 d.digits, isPlain c = true := fun c member =>
    isPlain_of_isDigit (Nat.isDigit_of_mem_toDigits (by decide) (by decide) member)
  have point : isPlain '.' = true := by decide
  have zero : isPlain '0' = true := by decide
  have zeros (n : Nat) := isPlain_replicate n zero
  rw [Double.Decimal.positional]
  split_ifs
  · exact List.forall_mem_append.mpr ⟨digits, zeros _⟩
  · refine List.forall_mem_append.mpr ⟨fun c member => digits c (List.mem_of_mem_take member), ?_⟩
    exact List.forall_mem_cons.mpr ⟨point, fun c member => digits c (List.mem_of_mem_drop member)⟩
  · simp only [List.forall_mem_append, List.forall_mem_cons]
    exact ⟨⟨⟨zero, point, by simp⟩, zeros _⟩, digits⟩

theorem inert_text (x : Double) : Inert x.text := by
  have minus : Inert "-" := inert_ofList (by decide)
  have none : Inert "NaN" := inert_ofList (by decide)
  have infinite : Inert "inf" := inert_ofList (by decide)
  have zero : Inert "0" := inert_ofList (by decide)
  have digits : Inert (String.ofList x.shortest.positional) :=
    inert_ofList (List.all_eq_true.mpr (Double.isPlain_positional _))
  have size := inert_ite (p := x.isInfinite = true) infinite
    (inert_ite (p := x.magnitude = 0) zero digits)
  unfold Double.text
  exact inert_ite none (inert_ite (minus.append size) size)

theorem inert_numberLiteral (x : Double) : Inert (numberLiteral x) := by
  have none : Inert "double.NaN" := inert_ofList (by decide)
  have low : Inert "double.NegativeInfinity" := inert_ofList (by decide)
  have high : Inert "double.PositiveInfinity" := inert_ofList (by decide)
  have point : Inert ".0" := inert_ofList (by decide)
  unfold numberLiteral
  refine inert_ite none (inert_ite (inert_ite low high) ?_)
  cases x.integer? with
  | none => exact inert_text x
  | some n => exact inert_ite (inert_toString_int n) ((inert_text x).append point)

mutual

def Expr.insets : Expr → List Inset
  | .text value => [.literal value]
  | .array _ items => insetsOfAll items
  | .null | .default | .bool _ | .number _ => []

def insetsOfAll : List Expr → List Inset
  | [] => []
  | item :: rest => item.insets ++ insetsOfAll rest

end

/-- A value whose array types are clean. -/
inductive Expr.Clean : Expr → Prop
  | null : Expr.null.Clean
  | default : Expr.default.Clean
  | bool (value : Bool) : (Expr.bool value).Clean
  | number (value : Double) : (Expr.number value).Clean
  | text (value : String) : (Expr.text value).Clean
  | array {element : TypeRef} {items : List Expr} (type : element.Clean)
      (clean : ∀ item ∈ items, item.Clean) : (Expr.array element items).Clean

theorem printExprs_eq (items : List Expr) : printExprs items = items.map Expr.print := by
  induction items with
  | nil => rfl
  | cons item rest ih => rw [printExprs, ih, List.map_cons]

theorem insetsOfAll_eq (items : List Expr) : insetsOfAll items = items.flatMap Expr.insets := by
  induction items with
  | nil => rfl
  | cons item rest ih => rw [insetsOfAll, ih, List.flatMap_cons]

theorem Expr.Clean.shows {e : Expr} (clean : e.Clean) : Shows e.print e.insets := by
  induction clean with
  | null => exact inert_ofList (by decide)
  | default => exact inert_ofList (by decide)
  | bool value => exact inert_ite (inert_ofList (by decide)) (inert_ofList (by decide))
  | number value => exact inert_numberLiteral value
  | text value => exact shows_stringLiteral value
  | @array element items type clean ih =>
    have new : Inert "new " := inert_ofList (by decide)
    cases items with
    | nil =>
      have none : Inert "[0]" := inert_ofList (by decide)
      rw [Expr.print]
      exact (new.append type.inert).append none
    | cons first rest =>
      have opening : Inert "[] \x7b " := inert_ofList (by decide)
      have closing : Inert " \x7d" := inert_ofList (by decide)
      have front := (new.append type.inert).append opening
      rw [Expr.print, Expr.insets, insetsOfAll_eq, printExprs_eq]
      exact (front.inert_append (shows_intercalate inert_comma ih)).append_inert closing

/-! ### Members -/

def Property.insets (p : Property) : List Inset :=
  p.comment.toList.map .summary ++ p.jsonName.toList.map .literal ++
    p.initializer.toList.flatMap Expr.insets

def EnumMember.insets (m : EnumMember) : List Inset :=
  m.wire.toList.map .literal

def Field.insets (f : Field) : List Inset :=
  f.comment.toList.map .summary ++ f.value.insets

structure Property.Clean (p : Property) : Prop where
  name : Inert p.name
  type : p.type.Clean
  initializer : ∀ value ∈ p.initializer, value.Clean

structure Field.Clean (f : Field) : Prop where
  name : Inert f.name
  type : f.type.Clean
  value : f.value.Clean

theorem shows_tag {opening : String} (inert : Inert opening) (value : Option String) :
    Shows (value.elim "" fun text => opening ++ stringLiteral text ++ ")]\n")
      (value.toList.map .literal) := by
  have closing : Inert ")]\n" := inert_ofList (by decide)
  rw [List.map_eq_flatMap]
  exact shows_elim fun text _ =>
    (inert.inert_append (shows_stringLiteral text)).append_inert closing

theorem Property.print_eq (p : Property) : p.print = optionalDocComment p.comment ++
    p.jsonName.elim "" (fun name => "[JsonPropertyName(" ++ stringLiteral name ++ ")]\n") ++
    "public " ++ p.type.print ++ (if p.nullable then "?" else "") ++ " " ++ p.name ++ " " ++
    (if p.readonly then "\x7b get; \x7d" else "\x7b get; set; \x7d") ++
    p.initializer.elim "" fun value => " = " ++ value.print ++ ";" := by
  unfold Property.print
  cases p.jsonName <;> cases p.initializer <;> rfl

theorem Property.Clean.shows {p : Property} (clean : p.Clean) : Shows p.print p.insets := by
  have opening : Inert "[JsonPropertyName(" := inert_ofList (by decide)
  have tag := shows_tag opening p.jsonName
  have value : Shows (p.initializer.elim "" fun value => " = " ++ value.print ++ ";")
      (p.initializer.toList.flatMap Expr.insets) := by
    have closing : Inert ";" := inert_ofList (by decide)
    exact shows_elim fun value member =>
      (inert_equals.inert_append (clean.initializer value member).shows).append_inert closing
  have modifier : Inert "public " := inert_ofList (by decide)
  have mark : Inert (if p.nullable then "?" else "") :=
    inert_ite (inert_ofList (by decide)) inert_empty
  have accessors : Inert (if p.readonly then "\x7b get; \x7d" else "\x7b get; set; \x7d") :=
    inert_ite (inert_ofList (by decide)) (inert_ofList (by decide))
  have front := ((shows_optionalDocComment p.comment).append tag).append_inert modifier
  have typed := (front.append_inert clean.type.inert).append_inert mark
  have named := ((typed.append_inert inert_blank).append_inert clean.name).append_inert inert_blank
  rw [Property.print_eq]
  exact (named.append_inert accessors).append value

theorem EnumMember.print_eq (m : EnumMember) : m.print =
    m.wire.elim "" (fun wire => "[EnumMember(Value = " ++ stringLiteral wire ++ ")]\n") ++ m.name ++
    m.value.elim "" (fun value => " = " ++ toString value) ++ "," := by
  unfold EnumMember.print
  cases m.wire <;> cases m.value <;> rfl

theorem EnumMember.shows {m : EnumMember} (name : Inert m.name) : Shows m.print m.insets := by
  have opening : Inert "[EnumMember(Value = " := inert_ofList (by decide)
  have tag := shows_tag opening m.wire
  have value : Inert (m.value.elim "" fun value => " = " ++ toString value) := by
    cases m.value with
    | none => exact inert_empty
    | some value => exact inert_equals.append (inert_toString_int value)
  have comma : Inert "," := inert_ofList (by decide)
  rw [EnumMember.print_eq]
  exact ((tag.append_inert name).append_inert value).append_inert comma

theorem Field.Clean.shows {f : Field} (clean : f.Clean) : Shows f.print f.insets := by
  have opening : Inert "public " := inert_ofList (by decide)
  have modifier : Inert (if f.isConst then "const" else "static readonly") :=
    inert_ite (inert_ofList (by decide)) (inert_ofList (by decide))
  have closing : Inert ";" := inert_ofList (by decide)
  have front := ((shows_optionalDocComment f.comment).append_inert opening).append_inert modifier
  have typed := (front.append_inert inert_blank).append_inert clean.type.inert
  have named := ((typed.append_inert inert_blank).append_inert clean.name).append_inert inert_equals
  unfold Field.print
  exact (named.append clean.value.shows).append_inert closing

/-! ### Declarations -/

theorem Shows.braces {separator : String} {texts : List String} {insets : List Inset}
    (shown : Shows (separator.intercalate texts) insets) :
    Shows (braces texts separator) insets := by
  cases texts with
  | nil =>
    have none : Inert "\x7b\n\x7d" := inert_ofList (by decide)
    have both := none.inert_append shown
    rw [String.intercalate_nil, String.append_empty] at both
    exact both
  | cons first rest => exact shown.looseBlock

theorem shows_block {texts : List String} {insets : List Inset}
    (shown : Shows ("\n\n".intercalate texts) insets) : Shows (block texts) insets := shown.braces

def Class.insets (c : Class) : List Inset :=
  c.comment.toList.map .summary ++ c.properties.flatMap Property.insets

def Enum.insets (e : Enum) : List Inset :=
  e.comment.toList.map .summary ++ e.members.flatMap EnumMember.insets

def Constants.insets (c : Constants) : List Inset :=
  c.fields.flatMap Field.insets

structure Class.Clean (c : Class) : Prop where
  name : Inert c.name
  generics : ∀ parameter ∈ c.generics, Inert parameter
  base : ∀ type ∈ c.base, type.Clean
  properties : ∀ p ∈ c.properties, p.Clean
  constructor : ∀ parameters ∈ c.constructor, ∀ p ∈ parameters, p.type.Clean ∧ Inert p.name

structure Enum.Clean (e : Enum) : Prop where
  name : Inert e.name
  members : ∀ m ∈ e.members, Inert m.name

structure Constants.Clean (c : Constants) : Prop where
  name : Inert c.name
  fields : ∀ f ∈ c.fields, f.Clean

theorem inert_constructorText {name : String} {parameters : List Parameter} (inert : Inert name)
    (clean : ∀ p ∈ parameters, p.type.Clean ∧ Inert p.name) :
    Inert (constructorText name parameters) := by
  have modifier : Inert "public " := inert_ofList (by decide)
  have opening : Inert "(" := inert_ofList (by decide)
  have base : Inert ")\n    : base(" := inert_ofList (by decide)
  have closing : Inert ")\n\x7b\n\x7d" := inert_ofList (by decide)
  have given : Inert (", ".intercalate (parameters.map fun p => p.type.print ++ " " ++ p.name)) :=
    inert_intercalate inert_comma (List.forall_mem_map.mpr fun p member =>
      ((clean p member).1.inert.append inert_blank).append (clean p member).2)
  have passed : Inert (", ".intercalate (parameters.map Parameter.name)) :=
    inert_intercalate inert_comma (List.forall_mem_map.mpr fun p member => (clean p member).2)
  have front := ((modifier.append inert).append opening).append given
  unfold constructorText
  exact ((front.append base).append passed).append closing

theorem Class.print_eq (c : Class) : c.print = optionalDocComment c.comment ++ "public class " ++
    withArguments c.name c.generics ++ c.base.elim "" (fun base => " : " ++ base.print) ++ "\n" ++
    block ((c.constructor.map (constructorText c.name)).toList ++
      c.properties.map Property.print) := by
  unfold Class.print
  cases c.base <;> rfl

theorem Class.Clean.shows {c : Class} (clean : c.Clean) : Shows c.print c.insets := by
  have opening : Inert "public class " := inert_ofList (by decide)
  have base : Inert (c.base.elim "" fun base => " : " ++ base.print) := by
    have colon : Inert " : " := inert_ofList (by decide)
    cases isBase : c.base with
    | none => exact inert_empty
    | some type => exact colon.append (clean.base type isBase).inert
  have properties := shows_intercalate inert_blankLine fun p member =>
    (clean.properties p member).shows
  have members : Shows ("\n\n".intercalate ((c.constructor.map (constructorText c.name)).toList ++
      c.properties.map Property.print)) (c.properties.flatMap Property.insets) := by
    cases isConstructor : c.constructor with
    | none => exact properties
    | some parameters =>
      have first := inert_constructorText clean.name (clean.constructor parameters isConstructor)
      exact shows_intercalate_cons inert_blankLine first properties
  have head := (shows_optionalDocComment c.comment).append_inert opening
  have named := head.append_inert (inert_withArguments clean.name clean.generics)
  rw [Class.print_eq]
  exact ((named.append_inert base).append_inert inert_feed).append (shows_block members)

theorem Enum.Clean.shows {e : Enum} (clean : e.Clean) : Shows e.print e.insets := by
  have tag : Inert (if e.stringConverter then
      "[JsonConverter(typeof(JsonStringEnumConverter))]\n" else "") :=
    inert_ite (inert_ofList (by decide)) inert_empty
  have opening : Inert "public enum " := inert_ofList (by decide)
  have members := shows_intercalate inert_feed fun m member =>
    EnumMember.shows (clean.members m member)
  have head := ((shows_optionalDocComment e.comment).append_inert tag).append_inert opening
  unfold Enum.print
  exact ((head.append_inert clean.name).append_inert inert_feed).append members.braces

theorem Constants.Clean.shows {c : Constants} (clean : c.Clean) : Shows c.print c.insets := by
  have opening : Inert "public static class " := inert_ofList (by decide)
  have fields := shows_intercalate inert_blankLine fun f member => (clean.fields f member).shows
  unfold Constants.print
  exact ((opening.append clean.name).append inert_feed).inert_append (shows_block fields)

theorem inert_caseText {full i : String} (name : Inert full) (number : Inert i) :
    Inert (caseText full i) := by
  have opening : Inert "public sealed class Case" := inert_ofList (by decide)
  have colon : Inert " : " := inert_ofList (by decide)
  have create : Inert "public Case" := inert_ofList (by decide)
  have parameter : Inert "(T" := inert_ofList (by decide)
  have assign : Inert " value)\n\x7b\n    Value = value;\n\x7d\n\n" := inert_ofList (by decide)
  have member : Inert "public T" := inert_ofList (by decide)
  have getter : Inert " Value \x7b get; \x7d\n\n" := inert_ofList (by decide)
  have visit : Inert
      "public override TResult Match<TResult>(IVisitor<TResult> visitor) => visitor.VisitCase" :=
    inert_ofList (by decide)
  have closing : Inert "(Value);" := inert_ofList (by decide)
  have constructor := (((create.append number).append parameter).append number).append assign
  have property := ((constructor.append member).append number).append getter
  have inside := ((property.append visit).append number).append closing
  have head := (((opening.append number).append colon).append name).append inert_feed
  unfold caseText
  exact head.append inside.looseBlock

theorem UnionFamily.inert {u : UnionFamily} (name : Inert u.name) : Inert u.print := by
  have cases : ∀ i ∈ (List.range u.arity).map fun i => toString (i + 1), Inert i :=
    List.forall_mem_map.mpr fun i _ => inert_toString (i + 1)
  have parameter : Inert "T" := inert_ofList (by decide)
  have full : Inert (withArguments u.name
      (((List.range u.arity).map fun i => toString (i + 1)).map ("T" ++ ·))) :=
    inert_withArguments name (List.forall_mem_map.mpr fun i member =>
      parameter.append (cases i member))
  have visits : Inert ("\n".intercalate (((List.range u.arity).map fun i => toString (i + 1)).map
      fun i => "TResult VisitCase" ++ i ++ "(T" ++ i ++ " value);")) := by
    have result : Inert "TResult VisitCase" := inert_ofList (by decide)
    have opening : Inert "(T" := inert_ofList (by decide)
    have closing : Inert " value);" := inert_ofList (by decide)
    exact inert_intercalate inert_feed (List.forall_mem_map.mpr fun i member =>
      (((result.append (cases i member)).append opening).append (cases i member)).append closing)
  have opening : Inert "public abstract class " := inert_ofList (by decide)
  have modifier : Inert "private " := inert_ofList (by decide)
  have empty : Inert "()\n\x7b\n\x7d" := inert_ofList (by decide)
  have visitor : Inert "public interface IVisitor<TResult>\n" := inert_ofList (by decide)
  have visit : Inert "public abstract TResult Match<TResult>(IVisitor<TResult> visitor);" :=
    inert_ofList (by decide)
  unfold UnionFamily.print
  refine ((opening.append full).append inert_feed).append (shows_block ?_)
  refine inert_intercalate inert_blankLine (List.forall_mem_append.mpr ⟨?_, ?_⟩)
  · simp only [List.forall_mem_cons]
    exact ⟨(modifier.append name).append empty, visitor.append visits.looseBlock, visit, by simp⟩
  · exact List.forall_mem_map.mpr fun i member => inert_caseText full (cases i member)

def Declaration.insets : Declaration → List Inset
  | record decl => decl.insets
  | enumeration decl => decl.insets
  | constants decl => decl.insets
  | union _ => []

def Declaration.Clean : Declaration → Prop
  | record decl => decl.Clean
  | enumeration decl => decl.Clean
  | constants decl => decl.Clean
  | union decl => Inert decl.name

theorem Declaration.Clean.shows {d : Declaration} (clean : d.Clean) : Shows d.print d.insets := by
  cases d with
  | record decl => exact Class.Clean.shows clean
  | enumeration decl => exact Enum.Clean.shows clean
  | constants decl => exact Constants.Clean.shows clean
  | union decl => exact UnionFamily.inert clean

/-! ### Files -/

/-- The comment lines at the top; the first is the mark of generated files. -/
def File.remarks (f : File) : List Inset :=
  ("<auto-generated />" :: f.header).map .remark

def File.insets (f : File) : List Inset :=
  f.remarks ++ f.declarations.flatMap Declaration.insets

/-- What a file is to be read as: its texts, and its namespace as that is read on its own. -/
def File.tokens (f : File) : List Token :=
  f.remarks.flatMap Inset.tokens ++ (lex ("namespace " ++ f.space).toList ++
    (f.declarations.flatMap Declaration.insets).flatMap Inset.tokens)

structure File.Clean (f : File) : Prop where
  usings : ∀ space ∈ f.usings, Inert space
  declarations : ∀ d ∈ f.declarations, d.Clean

theorem shows_headerLine (line : String) : Shows (headerLine line) [.remark line] := by
  intro fits rest
  have inside : ∀ c ∈ line.toList, endsLine c = false := List.forall_mem_singleton.mp fits
  rw [headerLine, List.flatMap_singleton, Inset.tokens]
  by_cases empty : line.isEmpty = true
  · rw [if_pos empty, if_pos empty]
    exact lex_comment (List.forall_mem_nil _) rest
  · rw [if_neg empty, if_neg empty]
    have blank : endsLine ' ' = false := by decide
    have read := lex_comment (List.forall_mem_cons.mpr ⟨blank, inside⟩) rest
    simpa using read

def File.body (f : File) : String :=
  if f.declarations.isEmpty then ""
  else indent ("\n\n".intercalate (f.declarations.map Declaration.print)) 1 ++ "\n"

theorem File.print_eq (f : File) : f.print =
    "// <auto-generated />\n" ++ String.join (f.header.map headerLine) ++
      String.join (f.usings.map fun u => "using " ++ u ++ ";\n") ++
    ("\n" ++ (("namespace " ++ f.space) ++ ("\n" ++ ("\x7b\n" ++ f.body ++ "\x7d\n")))) := by
  have space : "\nnamespace " = "\n" ++ "namespace " := by decide
  have opening : "\n\x7b\n" = "\n" ++ "\x7b\n" := by decide
  unfold File.print File.body
  rw [space, opening]
  simp only [String.append_assoc]
  cases f.declarations <;> rfl

section files
variable {f : File} (clean : f.Clean)
include clean

theorem File.Clean.shows_top : Shows ("// <auto-generated />\n" ++
    String.join (f.header.map headerLine) ++
      String.join (f.usings.map fun u => "using " ++ u ++ ";\n")) f.remarks := by
  have mark : headerLine "<auto-generated />" = "// <auto-generated />\n" := by decide
  have first := shows_headerLine "<auto-generated />"
  have header := shows_join fun line (_ : line ∈ f.header) => shows_headerLine line
  have usings : Inert (String.join (f.usings.map fun u => "using " ++ u ++ ";\n")) := by
    have opening : Inert "using " := inert_ofList (by decide)
    have closing : Inert ";\n" := inert_ofList (by decide)
    exact (shows_join fun u member => (opening.append (clean.usings u member)).append closing).inert
  rw [mark] at first
  rw [← List.map_eq_flatMap] at header
  exact (first.append header).append_inert usings

theorem File.Clean.shows_body : Shows ("\x7b\n" ++ f.body ++ "\x7d\n")
    (f.declarations.flatMap Declaration.insets) := by
  have opening : Inert "\x7b\n" := inert_ofList (by decide)
  have closing : Inert "\x7d\n" := inert_ofList (by decide)
  have declarations := shows_intercalate inert_blankLine fun d member =>
    (clean.declarations d member).shows
  refine (opening.inert_append ?_).append_inert closing
  rw [File.body]
  cases listed : f.declarations with
  | nil => exact inert_empty
  | cons first rest => exact (listed ▸ declarations).indent 1

/-- The line end after the namespace leaves the lexer in code, whatever the namespace is. -/
theorem File.Clean.lex_print (fits : ∀ inset ∈ f.insets, inset.Fits) :
    lex f.print.toList = f.tokens := by
  rw [File.insets, List.forall_mem_append] at fits
  have feed : "\n".toList = ['\n'] := by decide
  have first := lex_cons_plain (c := '\n') (by decide)
  rw [File.print_eq, String.toList_append, clean.shows_top fits.1, File.tokens]
  rw [String.toList_append, feed, List.singleton_append, first, String.toList_append,
    String.toList_append, String.toList_append, feed, List.singleton_append, lex_append_feed,
    clean.shows_body.lex_eq fits.2]

theorem File.Clean.lex_print_iff :
    lex f.print.toList = f.tokens ↔ ∀ inset ∈ f.insets, inset.Fits := by
  constructor
  · intro read inset member
    rw [inset.fits_iff]
    intro token made
    suffices token ∈ lex f.print.toList from lex_inside this
    rw [read, File.tokens, List.mem_append, List.mem_append]
    rcases List.mem_append.mp member with remark | inner
    · exact .inl (List.mem_flatMap.mpr ⟨inset, remark, made⟩)
    · exact .inr (.inr (List.mem_flatMap.mpr ⟨inset, inner, made⟩))
  · exact clean.lex_print

end files

end TypeLoom.Code
