import TypeLoom.Conversion
import TypeLoom.Proofs.DeclaredNames
import TypeLoom.Proofs.PrintedTokens
import TypeLoom.Proofs.TypeParts

/-! Texts stay in their literals and comments. Every name in the file of a graph is made of letters,
digits and underscores, so all that the lexer finds besides code are the texts that were set into
the file. It finds them whole unless a string has a separator or a line of a comment has a line end
inside. -/
namespace TypeLoom.Code
open TypeLoom.Graph (Node Shape Member Constant)

def isWord (c : Char) : Bool := Text.isAlphanumeric c || c == '_'

theorem isPlain_of_isWord {c : Char} (word : isWord c = true) : isPlain c = true :=
  isPlain_of (p := isWord) (by decide +kernel) word

theorem endsLine_of_isWord {c : Char} (word : isWord c = true) : endsLine c = false :=
  endsLine_of (p := isWord) (by decide +kernel) word

theorem isWord_identifierChar (c : Char) : isWord (identifierChar c) = true := by
  rw [identifierChar]
  split_ifs with own
  · exact own
  · decide +kernel

theorem isWord_guardDigit {word : List Char} (letters : ∀ c ∈ word, isWord c = true) :
    ∃ c rest, guardDigit word = c :: rest ∧ ∀ d ∈ c :: rest, isWord d = true := by
  have mark : isWord '_' = true := by decide +kernel
  cases word with
  | nil => exact ⟨'_', [], rfl, List.forall_mem_singleton.mpr mark⟩
  | cons c rest =>
    rw [guardDigit]
    split_ifs
    · exact ⟨'_', c :: rest, rfl, List.forall_mem_cons.mpr ⟨mark, letters⟩⟩
    · exact ⟨c, rest, rfl, letters⟩

theorem inert_identifier (name : String) : Inert (identifier name) := by
  obtain ⟨c, rest, word, letters⟩ := isWord_guardDigit
    (List.forall_mem_map.mpr fun c (_ : c ∈ name.toList) => isWord_identifierChar c)
  have plain : ∀ d ∈ c :: rest, isPlain d = true := fun d member =>
    isPlain_of_isWord (letters d member)
  have first := letters c List.mem_cons_self
  unfold identifier
  rw [word]
  refine inert_ite (fun _ after => ?_) (inert_ofList (List.all_eq_true.mpr plain))
  rw [List.forall_mem_cons] at plain
  have marked := lex_mark plain.1 (endsLine_of_isWord first) (rest ++ after)
  rw [lex_append_plain plain.2] at marked
  simpa using marked

theorem inert_freeNumbered {base : String} (inert : Inert base) (taken : List String)
    (steps number : Nat) : Inert (freeNumbered taken base steps number) := by
  induction steps generalizing number with
  | zero => exact inert.append (inert_toString number)
  | succ steps ih =>
    rw [freeNumbered]
    exact inert_ite (ih (number + 1)) (inert.append (inert_toString number))

theorem inert_uniqueNames {bases : List String} (inert : ∀ base ∈ bases, Inert base)
    (taken : List String) : ∀ name ∈ uniqueNames taken bases, Inert name := by
  induction bases generalizing taken with
  | nil => simp [uniqueNames]
  | cons base rest ih =>
    rw [List.forall_mem_cons] at inert
    rw [uniqueNames, List.forall_mem_cons]
    exact ⟨inert_ite (inert_freeNumbered inert.1 taken _ 1) inert.1, ih inert.2 _⟩

theorem inert_declarationName (settings : Settings) (node : Node) :
    Inert (declarationName settings node) := by
  rw [declarationName]
  split <;> exact inert_identifier _

theorem inert_memberName (settings : Settings) (className name : String) :
    Inert (memberName settings className name) := by
  have value : Inert "Value" := inert_ofList (by decide)
  unfold memberName
  exact inert_ite ((inert_identifier _).append value) (inert_identifier _)

theorem inert_enumMemberName (casing : Name.Casing) (name : String) (number : Nat) :
    Inert (enumMemberName casing name number) := by
  have value : Inert "Value" := inert_ofList (by decide)
  unfold enumMemberName
  exact inert_ite (value.append (inert_toString number)) (inert_identifier _)

/-- Names under which types are written. -/
def Naming.Clean (n : Naming) : Prop :=
  ∀ id name, n.names.get? id = some name → Inert name

theorem Naming.of_clean (g : Graph) (settings : Settings) : (Naming.of g settings).Clean := by
  intro id name found
  have listed := Table.mem_entries_of_get? found
  rw [Naming.of_entries] at listed
  refine inert_uniqueNames ?_ [] name (List.of_mem_zip listed).2
  exact List.forall_mem_map.mpr fun entry _ => inert_declarationName settings entry.2

theorem TypeRef.clean_plain {name : String} (inert : Inert name) : (TypeRef.plain name).Clean :=
  .named inert (by simp)

theorem TypeRef.clean_object : TypeRef.object.Clean := clean_plain (inert_ofList (by decide))

theorem TypeRef.Clean.element {type : TypeRef} (clean : type.Clean) : type.element.Clean := by
  cases clean with
  | named inert arguments => exact clean_object
  | array inner => exact inner

theorem clean_primitiveType (kind : Primitive) : (primitiveType kind).Clean := by
  cases kind <;> exact TypeRef.clean_plain (inert_ofList (by decide))

theorem clean_keyType (key : IndexKey) : (keyType key).Clean := by
  cases key <;> exact TypeRef.clean_plain (inert_ofList (by decide))

theorem clean_dictionary (key : IndexKey) {type : TypeRef} (clean : type.Clean) :
    (TypeRef.named "Dictionary" [keyType key, type]).Clean :=
  .named (inert_ofList (by decide))
    (List.forall_mem_cons.mpr ⟨clean_keyType key, List.forall_mem_singleton.mpr clean⟩)

theorem clean_tuple {types : List TypeRef} (clean : ∀ type ∈ types, type.Clean) :
    (TypeRef.named "Tuple" types).Clean := .named (inert_ofList (by decide)) clean

section lower
variable {n : Naming} (names : n.Clean)
include names

theorem clean_compositional : Compositional n (fun _ => True) TypeRef.Clean where
  argument _ _ := trivial
  inside _ _ _ _ := trivial
  parameter _ _ := TypeRef.clean_plain (inert_identifier _)
  keyword := clean_primitiveType
  array := .array
  dictionary := clean_dictionary
  tuple := clean_tuple
  declared _ _ _ isName _ all := .named (names _ _ isName) all

theorem Naming.Clean.use (u : TypeUse) : (n.use u).Clean := (clean_compositional names).use trivial

theorem Naming.Clean.uses (uses : List TypeUse) : ∀ type ∈ n.writer.uses [] uses, type.Clean := by
  rw [NodeWriter.uses, typeUses_eq_map]
  exact List.forall_mem_map.mpr fun u _ => names.use u

end lower

mutual

theorem valueExpr_clean (inConstant : Bool) {type : TypeRef} (clean : type.Clean) :
    (value : Literal.Value) → (valueExpr inConstant type value).Clean
  | .null => by
    rw [valueExpr]
    split_ifs
    · exact .null
    · exact .default
  | .bool value => .bool value
  | .number value => .number value
  | .text value => .text value
  | .array items => by
    rw [valueExpr]
    exact .array clean.element (valueExprs_clean clean.element items)

theorem valueExprs_clean {type : TypeRef} (clean : type.Clean) :
    (items : List Literal.Value) → ∀ item ∈ valueExprs type items, item.Clean
  | [] => by simp [valueExprs]
  | item :: rest => by
    rw [valueExprs, List.forall_mem_cons]
    exact ⟨valueExpr_clean true clean item, valueExprs_clean clean rest⟩

end

section declarations
variable {n : Naming} (names : n.Clean) (settings : Settings) {name : String} (inert : Inert name)
include names inert

theorem lowerRecord_clean (node : Node) (properties : List Graph.Property) :
    (lowerRecord n settings name node properties).Clean where
  name := inert
  generics := List.forall_mem_map.mpr fun g _ => inert_identifier g.name
  base := by simp [lowerRecord]
  properties := by
    have members := inert_uniqueNames (List.forall_mem_map.mpr fun p (_ : p ∈ properties) =>
      inert_memberName settings name p.name) []
    refine List.forall_mem_map.mpr ?_
    rintro ⟨own, p⟩ member
    refine ⟨members own (List.of_mem_zip member).1, names.use p.type, fun value made => ?_⟩
    obtain ⟨constant, -, rfl⟩ := Option.map_eq_some_iff.mp made
    exact valueExpr_clean false (names.use p.type) constant
  constructor := by simp [lowerRecord]

theorem lowerConstants_clean (items : List Constant) :
    (lowerConstants n settings name items).Clean where
  name := inert
  fields := by
    have members := inert_uniqueNames (List.forall_mem_map.mpr fun c (_ : c ∈ items) =>
      inert_memberName settings name c.name) []
    refine List.forall_mem_map.mpr ?_
    rintro ⟨own, c⟩ member
    exact ⟨members own (List.of_mem_zip member).1, names.use c.type,
      valueExpr_clean true (names.use c.type) c.value⟩

omit names in
theorem lowerEnum_clean (node : Node) (members : List Member) :
    (lowerEnum settings name node members).Clean where
  name := inert
  members := by
    have named := inert_uniqueNames (List.forall_mem_map.mpr
      fun entry (_ : entry ∈ members.zipIdx) =>
        inert_enumMemberName settings.enumMemberCasing entry.1.name entry.2) []
    refine List.forall_mem_map.mpr ?_
    rintro ⟨own, m⟩ member
    exact named own (List.of_mem_zip member).1

omit names in
theorem derivedClass_clean (node : Node) {base : TypeRef} (clean : base.Clean)
    {constructor : Option (List Parameter)}
    (parameters : ∀ list ∈ constructor, ∀ p ∈ list, p.type.Clean ∧ Inert p.name) :
    (derivedClass name node base constructor).Clean where
  name := inert
  generics := List.forall_mem_map.mpr fun g _ => inert_identifier g.name
  base := by simpa [derivedClass] using clean
  properties := by simp [derivedClass]
  constructor := parameters

omit names inert in
theorem itemParameters_clean {types : List TypeRef} (clean : ∀ type ∈ types, type.Clean) :
    ∀ p ∈ itemParameters types, p.type.Clean ∧ Inert p.name := by
  have item : Inert "item" := inert_ofList (by decide)
  refine List.forall_mem_map.mpr ?_
  rintro ⟨type, i⟩ member
  exact ⟨clean type (List.fst_mem_of_mem_zipIdx member), item.append (inert_toString (i + 1))⟩

theorem lowerDeclaration_clean (node : Node) :
    ∀ d ∈ lowerDeclaration n settings name node, d.Clean := by
  have one {d : Declaration} (clean : d.Clean) : ∀ other ∈ some d, other.Clean := by
    simpa using clean
  unfold lowerDeclaration
  cases node.shape with
  | record properties generics => exact one (lowerRecord_clean names settings inert node properties)
  | stringUnion members => exact one (lowerEnum_clean settings inert node members)
  | constants items => exact one (lowerConstants_clean names settings inert items)
  | classUnion arity => exact one inert
  | dictionary key value generics =>
    exact one (derivedClass_clean inert node (clean_dictionary key (names.use value)) (by simp))
  | instantiation base arguments generics =>
    have written := names.use ⟨.node base, 0, arguments⟩
    exact one (derivedClass_clean inert node written (by simp))
  | tuple elements generics =>
    have items := names.uses elements
    refine one (derivedClass_clean inert node (clean_tuple items) ?_)
    simpa using itemParameters_clean items
  | array _ _ | primitive _ | classUnionInstance _ _ => simp

end declarations

theorem inert_usings (declarations : List Declaration) : ∀ u ∈ usings declarations, Inert u := by
  have system : Inert "System" := inert_ofList (by decide)
  have collections : Inert "System.Collections.Generic" := inert_ofList (by decide)
  have serialization : Inert "System.Runtime.Serialization" := inert_ofList (by decide)
  have json : Inert "System.Text.Json.Serialization" := inert_ofList (by decide)
  rw [usings, List.forall_mem_append, List.forall_mem_append]
  refine ⟨⟨by simp [system, collections], ?_⟩, ?_⟩
  · split_ifs
    · exact List.forall_mem_singleton.mpr serialization
    · simp
  · split_ifs
    · exact List.forall_mem_singleton.mpr json
    · simp

theorem lowerFile_clean (g : Graph) (settings : Settings) : (lowerFile g settings).Clean where
  usings := inert_usings _
  declarations := by
    intro d member
    obtain ⟨entry, -, lowered⟩ := List.mem_filterMap.mp member
    obtain ⟨name, named, made⟩ := Option.bind_eq_some_iff.mp lowered
    have names := Naming.of_clean g settings
    exact lowerDeclaration_clean names settings (names _ name named) entry.2 d made

/-- Escaping removes all line ends of a text but the separators. A doc comment has its mark on every
line exactly if those lines have one that begin inside a line of the text. And the lexer reads the
file of a graph as the texts in it exactly if no string has a separator and no line of a comment has
a line end inside. -/
theorem texts_keep_context_iff (text comment : String) (settings : Settings) (g : Graph) :
    (escape text).toList.filter endsLine = text.toList.filter isSeparator ∧
    ((∀ line ∈ sourceLines (docComment comment).toList, commentMark <+: line) ↔
      ∀ line ∈ Text.lines comment.toList, ∀ later ∈ (sourceLines (Text.trimEnd line)).tail,
        commentMark <+: later) ∧
    (lex (Conversion.fileText settings g).toList = (lowerFile g settings).tokens ↔
      ∀ inset ∈ (lowerFile g settings).insets, inset.Fits) := by
  refine ⟨?_, commentMark_docComment comment, ?_⟩
  · rw [escape, String.toList_ofList, filter_endsLine_escapeChars]
  · exact (lowerFile_clean g settings).lex_print_iff

/-- An enumeration with a comment and a value that have marks of literals and comments in them. -/
def annotated : Graph where
  nodes := #[{
    name := "Mode"
    shape := .stringUnion [⟨"on", none, some "\"//\\"⟩]
    flags := { isPublic := true, rendered := true }
    comment := some "either \"on\"\r\n\nor // <off>\r\n" }]

theorem texts_keep_context_annotated :
    (∀ inset ∈ (lowerFile annotated {}).insets, inset.Fits) ∧
    lex (Conversion.fileText {} annotated).toList = [.comment " <auto-generated />".toList,
      .comment "/ <summary>".toList, .comment "/ either \"on\"".toList, .comment "/".toList,
      .comment "/ or // &lt;off&gt;".toList, .comment "/ </summary>".toList,
      .literal "\\\"//\\\\".toList] := by
  have fits : ∀ inset ∈ (lowerFile annotated {}).insets, inset.Fits := by decide +kernel
  refine ⟨fits, ((texts_keep_context_iff "" "" {} annotated).2.2.mpr fits).trans ?_⟩
  decide +kernel

/-- A separator ends the line inside a literal, and a carriage return inside a line of a comment
lets the rest of the line stand as code. -/
theorem line_end_leaves_context :
    (escape "\u2028").toList.filter endsLine = ['\u2028'] ∧
    lex (stringLiteral "\u2028").toList = [.stray, .stray] ∧
    sourceLines (docComment "a\rb").toList = ["/// <summary>".toList, "/// a".toList, "b".toList,
      "/// </summary>".toList] ∧
    ¬ commentMark <+: "b".toList := by
  decide +kernel

end TypeLoom.Code
