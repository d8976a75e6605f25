import TypeLoom.Proofs.BaseTypes
import TypeLoom.Proofs.LexicalContexts

/-! Names of the members of a class. No two members have the same text for a name, but two texts can
be one identifier, since the mark of a reserved word does not count, and a number can make a
member's name that of its class. Main statement: the names are legal unless a member is numbered so
that it is called like its class, or a reserved word is lengthened behind its mark and the same word
stands there without the mark. -/
namespace TypeLoom.Code
open TypeLoom.Graph (Node Shape)

/-- The identifier that is written: a mark in front does not count. -/
def bare (name : String) : List Char :=
  if name.toList.head? = some '@' then name.toList.tail else name.toList

/-- Members that are different identifiers, none of them that of the class. -/
structure Legal (name : String) (members : List String) : Prop where
  distinct : (members.map bare).Nodup
  apart : bare name ∉ members.map bare

/-- Names of the properties of a class or of the fields of the constants. -/
def Declaration.members : Declaration → List String
  | .record decl => decl.properties.map (·.name)
  | .constants decl => decl.fields.map (·.name)
  | .enumeration _ | .union _ => []

/-- A member is the name of another one with a number, and so it is called like the class. -/
def NumberedClash (name : String) (members : List String) : Prop :=
  name ∈ members ∧ ∃ base ∈ members, ∃ number : Nat, name = base ++ toString number

/-- What is put behind a name: a word that sets it apart from the class, and a number. -/
def IsEnding (ending : String) : Prop :=
  ∃ value ∈ ["", "Value"], ending = value ∨ ∃ number : Nat, ending = value ++ toString number

/-- A reserved word with an ending is there with its mark and without. -/
def MarkedClash (name : String) (members : List String) : Prop :=
  ∃ word ∈ reservedWords, ∃ ending, IsEnding ending ∧ ending ≠ "" ∧
    "@" ++ word ++ ending ∈ name :: members ∧ word ++ ending ∈ name :: members

/-- What a shape calls the members of its class. -/
def sourceNames : Shape → List String
  | .record properties _ => properties.map (·.name)
  | .constants items => items.map (·.name)
  | _ => []

section sources
variable (settings : Settings) (className : String) (sources : List String)

/-- The member for one of the sources needs a number, since its name is in use before, and the first
number that is left makes it the name of the class. -/
def NumberedSource : Prop :=
  ∃ before source after, sources = before ++ source :: after ∧ ∃ number : Nat,
    className = memberName settings className source ++ toString (number + 1) ∧
    InUse (memberName settings className) before (memberName settings className source) ∧
    ∀ k < number, InUse (memberName settings className) before
      (memberName settings className source ++ toString (k + 1))

/-- The class is called by a reserved word with its mark and an ending, or else one of the sources
becomes a reserved word and gets an ending behind its mark, and the same stands there without the
mark. -/
def MarkedSource : Prop :=
  ∃ word ∈ reservedWords, ∃ ending, IsEnding ending ∧ ending ≠ "" ∧
    ((className = "@" ++ word ++ ending ∧
        InUse (memberName settings className) sources (word ++ ending)) ∨
      ((∃ source ∈ sources,
          identifier (Name.convert source settings.propertyCasing .member) = "@" ++ word) ∧
        InUse (memberName settings className) sources ("@" ++ word ++ ending) ∧
        (className = word ++ ending ∨
          InUse (memberName settings className) sources (word ++ ending))))

end sources

def Unmarked (name : String) : Prop := name.toList.head? ≠ some '@'

theorem bare_of_unmarked {name : String} (unmarked : Unmarked name) : bare name = name.toList :=
  if_neg unmarked

theorem bare_marked (name : String) : bare ("@" ++ name) = name.toList := by
  simp [bare, String.toList_append]

theorem exists_marked {name : String} (marked : ¬ Unmarked name) : ∃ word, name = "@" ++ word := by
  obtain ⟨word, isName⟩ := List.head?_eq_some_iff.mp (not_not.mp marked)
  refine ⟨String.ofList word, String.toList_injective ?_⟩
  simp [isName, String.toList_append]

theorem eq_marked_of_bare {a b : String} (same : bare a = bare b) (ne : a ≠ b) :
    a = "@" ++ b ∨ b = "@" ++ a := by
  by_cases plain : Unmarked a <;> by_cases plain' : Unmarked b
  · rw [bare_of_unmarked plain, bare_of_unmarked plain'] at same
    exact absurd (String.toList_injective same) ne
  · obtain ⟨word, rfl⟩ := exists_marked plain'
    rw [bare_of_unmarked plain, bare_marked] at same
    exact .inr (congrArg _ (String.toList_injective same.symm))
  · obtain ⟨word, rfl⟩ := exists_marked plain
    rw [bare_of_unmarked plain', bare_marked] at same
    exact .inl (congrArg _ (String.toList_injective same))
  · obtain ⟨word, rfl⟩ := exists_marked plain
    obtain ⟨word', rfl⟩ := exists_marked plain'
    rw [bare_marked, bare_marked] at same
    exact absurd (congrArg _ (String.toList_injective same)) ne

theorem unmarked_append {name : String} (unmarked : Unmarked name) {ending : String}
    (plain : Unmarked ending) : Unmarked (name ++ ending) := by
  rw [Unmarked, String.toList_append, List.head?_append]
  cases first : name.toList.head? with
  | none => exact plain
  | some c =>
    rw [Unmarked, first] at unmarked
    exact unmarked

theorem unmarked_toString (number : Nat) : Unmarked (toString number) := by
  intro marked
  rw [Nat.toString_eq_ofList_toDigits, String.toList_ofList] at marked
  have digit := Nat.isDigit_of_mem_toDigits (by decide) (by decide) (List.mem_of_mem_head? marked)
  exact absurd digit (by decide)

theorem unmarked_reserved {word : String} (reserved : word ∈ reservedWords) (ending : String) :
    Unmarked (word ++ ending) := by
  have letters : reservedWords.all (fun word => word.toList.head?.any (· != '@')) = true := by
    decide +kernel
  have own := List.all_eq_true.mp letters word reserved
  obtain ⟨c, first, other⟩ := (Option.any_eq_true _ _).mp own
  rw [Unmarked, String.toList_append, List.head?_append, first]
  simpa using other

/-- Names as they are written: the ones that begin with a mark are reserved words with an ending. -/
def WellMarked (name : String) : Prop :=
  Unmarked name ∨ ∃ word ∈ reservedWords, ∃ ending, IsEnding ending ∧ name = "@" ++ word ++ ending

theorem identifier_cases (name : String) : Unmarked (identifier name) ∨
    ∃ word ∈ reservedWords, identifier name = "@" ++ word := by
  obtain ⟨c, rest, word, letters⟩ := isWord_guardDigit
    (List.forall_mem_map.mpr fun c (_ : c ∈ name.toList) => isWord_identifierChar c)
  rw [identifier]
  split_ifs with reserved
  · exact .inr ⟨_, List.contains_iff_mem.mp reserved, rfl⟩
  · refine .inl fun marked => ?_
    rw [String.toList_ofList, word, List.head?_cons, Option.some_inj] at marked
    have letter := letters c List.mem_cons_self
    rw [marked] at letter
    exact absurd letter (by decide +kernel)

/-- A mark in front of a name that is in use comes from a source that is a reserved word. -/
theorem InUse.marked {α : Type} {own text : α → String} {sources : List α} {name : String}
    (inUse : InUse own sources name) (written : ∀ source ∈ sources, ∃ value ∈ ["", "Value"],
      own source = identifier (text source) ++ value) :
    Unmarked name ∨ ∃ source ∈ sources, ∃ word ∈ reservedWords,
      identifier (text source) = "@" ++ word ∧ ∃ ending, IsEnding ending ∧
        name = "@" ++ word ++ ending := by
  have spelled (source : α) (listed : source ∈ sources) : Unmarked (own source) ∨
      ∃ word ∈ reservedWords, identifier (text source) = "@" ++ word ∧
        ∃ value ∈ ["", "Value"], own source = "@" ++ word ++ value := by
    obtain ⟨value, isValue, isName⟩ := written source listed
    rw [isName]
    rcases identifier_cases (text source) with unmarked | ⟨word, reserved, isWord⟩
    · refine .inl (unmarked_append unmarked ?_)
      simp only [List.mem_cons, List.not_mem_nil, or_false] at isValue
      rcases isValue with rfl | rfl <;> simp [Unmarked]
    · exact .inr ⟨word, reserved, isWord, value, isValue, by rw [isWord]⟩
  cases inUse with
  | plain before source after =>
    refine (spelled source (by simp)).imp_right ?_
    rintro ⟨word, reserved, isWord, value, isValue, isName⟩
    exact ⟨source, by simp, word, reserved, isWord, value, ⟨value, isValue, .inl rfl⟩, isName⟩
  | numbered before source after number =>
    rcases spelled source (by simp) with
      unmarked | ⟨word, reserved, isWord, value, isValue, isName⟩
    · exact .inl (unmarked_append unmarked (unmarked_toString (number + 1)))
    · refine .inr ⟨source, by simp, word, reserved, isWord, value ++ toString (number + 1),
        ⟨value, isValue, .inr ⟨number + 1, rfl⟩⟩, ?_⟩
      rw [isName, String.append_assoc]

theorem InUse.wellMarked {α : Type} {own text : α → String} {sources : List α} {name : String}
    (inUse : InUse own sources name) (written : ∀ source ∈ sources, ∃ value ∈ ["", "Value"],
      own source = identifier (text source) ++ value) : WellMarked name :=
  (inUse.marked written).imp_right
    fun ⟨_, _, word, reserved, _, ending, isEnding, isName⟩ =>
      ⟨word, reserved, ending, isEnding, isName⟩

theorem Naming.of_wellMarked {g : Graph} {settings : Settings} {id : NodeId} {name : String}
    (found : (Naming.of g settings).names.get? id = some name) : WellMarked name := by
  have spelled (entry : NodeId × Node) :
      ∃ text, declarationName settings entry.2 = identifier text := by
    rw [declarationName]
    split <;> exact ⟨_, rfl⟩
  choose text isText using spelled
  have listed := Table.mem_entries_of_get? found
  rw [Naming.of_entries] at listed
  refine @InUse.wellMarked _ _ text _ _ (mem_uniqueNames_iff.mp (List.of_mem_zip listed).2)
    fun entry _ => ⟨"", List.mem_cons_self, ?_⟩
  rw [isText, String.append_empty]

theorem Naming.of_cases {g : Graph} {settings : Settings} {id : NodeId} {node : Node}
    {name : String} (declared : (id, node) ∈ declaredNodes g)
    (found : (Naming.of g settings).names.get? id = some name) :
    name = declarationName settings node ∨
      ∃ number : Nat, name = declarationName settings node ++ toString (number + 1) := by
  have listed := Table.mem_entries_of_get? found
  rw [Naming.of_entries, List.zip_map_left] at listed
  obtain ⟨⟨⟨other, node'⟩, name'⟩, zipped, same⟩ := List.mem_map.mp listed
  obtain ⟨rfl, rfl⟩ : other = id ∧ name' = name := by simpa using same
  have there := (mem_declaredNodes.mp (List.of_mem_zip zipped).1).1
  have here := (Graph.mem_retainedNodes.mp (mem_declaredNodes.mp declared).1).1.2
  rw [(Graph.mem_retainedNodes.mp there).1.2, Option.some_inj] at here
  subst here
  exact @mem_zip_uniqueNames _ (declarationName settings ∘ Prod.snd) _ _ _ _ zipped

theorem memberName_ne (settings : Settings) (className name : String) :
    memberName settings className name ≠ className := by
  rw [memberName]
  split_ifs with same
  · rw [same]
    intro longer
    simpa using congrArg String.length longer
  · exact same

theorem memberName_cases (settings : Settings) (className name : String) :
    ∃ value ∈ ["", "Value"], memberName settings className name =
      identifier (Name.convert name settings.propertyCasing .member) ++ value := by
  rw [memberName]
  split_ifs
  · exact ⟨"Value", by simp, rfl⟩
  · exact ⟨"", by simp, String.append_empty.symm⟩

theorem value_not_reserved (name : String) : name ++ "Value" ∉ reservedWords := by
  have small : reservedWords.all (fun word => !word.toList.contains 'V') = true := by decide +kernel
  intro member
  simpa [String.toList_append] using List.all_eq_true.mp small _ member

section members
variable {settings : Settings} {className : String} {sources : List String}

theorem memberName_not_reserved {name : String}
    (inUse : InUse (memberName settings className) sources name) : name ∉ reservedWords := by
  refine inUse.not_reserved fun source _ => ?_
  obtain ⟨value, isValue, isName⟩ := memberName_cases settings className source
  rw [isName]
  simp only [List.mem_cons, List.not_mem_nil, or_false] at isValue
  rcases isValue with rfl | rfl
  · rw [String.append_empty]
    exact identifier_not_reserved _
  · exact value_not_reserved _

theorem numberedSource_of_mem
    (member : className ∈ uniqueNames [] (sources.map (memberName settings className))) :
    NumberedSource settings className sources := by
  obtain ⟨before, source, after, split, same | numbered⟩ :=
    (mem_uniqueNames_iff.mp member).exists_source
  · exact absurd same.symm (memberName_ne settings className source)
  · exact ⟨before, source, after, split, numbered⟩

theorem NumberedSource.clash (numbered : NumberedSource settings className sources) :
    NumberedClash className (uniqueNames [] (sources.map (memberName settings className))) := by
  obtain ⟨before, source, after, rfl, number, isName, taken, smaller⟩ := numbered
  have inUse := InUse.numbered before source after number taken smaller
  rw [← isName] at inUse
  exact ⟨mem_uniqueNames_iff.mpr inUse, _, mem_uniqueNames_iff.mpr (taken.append (source :: after)),
    number + 1, isName⟩

theorem markedClash_iff (unreserved : className ∉ reservedWords) :
    MarkedClash className (uniqueNames [] (sources.map (memberName settings className))) ↔
      MarkedSource settings className sources := by
  constructor
  · rintro ⟨word, reserved, ending, isEnding, some, marked, plain⟩
    rw [List.mem_cons, mem_uniqueNames_iff] at marked plain
    rcases marked with isName | marked
    · refine ⟨word, reserved, ending, isEnding, some, .inl ⟨isName.symm, ?_⟩⟩
      refine plain.resolve_left fun isPlain => ?_
      rw [← isPlain, String.append_assoc] at isName
      simpa using congrArg String.length isName
    · rcases marked.marked fun source _ => memberName_cases settings className source with
        unmarked | ⟨source, there, word', reserved', isWord, ending', isEnding', same⟩
      · exact absurd (by simp [String.toList_append]) unmarked
      · -- The source settles where the reserved word ends.
        rw [String.append_assoc, String.append_assoc, String.append_right_inj] at same
        rw [String.append_assoc, same, ← String.append_assoc] at marked
        rw [same] at plain
        refine ⟨word', reserved', ending', isEnding', ?_,
          .inr ⟨⟨source, there, isWord⟩, marked, plain.imp_left Eq.symm⟩⟩
        rintro rfl
        rw [String.append_empty] at plain
        rcases plain with isClass | inUse
        · exact unreserved (isClass ▸ reserved')
        · exact memberName_not_reserved inUse reserved'
  · rintro ⟨word, reserved, ending, isEnding, some, ⟨isName, plain⟩ | ⟨-, marked, plain⟩⟩
    · refine ⟨word, reserved, ending, isEnding, some, ?_, ?_⟩
      · exact isName ▸ List.mem_cons_self
      · exact List.mem_cons_of_mem _ (mem_uniqueNames_iff.mpr plain)
    · refine ⟨word, reserved, ending, isEnding, some, ?_, ?_⟩
      · exact List.mem_cons_of_mem _ (mem_uniqueNames_iff.mpr marked)
      · rw [List.mem_cons, mem_uniqueNames_iff]
        exact plain.imp_left Eq.symm

end members

section legal
variable {name : String} {members : List String}

theorem markedClash_of_bare (written : ∀ a ∈ name :: members, WellMarked a)
    (unreserved : ∀ a ∈ name :: members, a ∉ reservedWords) {a b : String}
    (here : a ∈ name :: members) (there : b ∈ name :: members) (same : bare a = bare b)
    (ne : a ≠ b) : MarkedClash name members := by
  have clash {marked plain : String} (here : marked ∈ name :: members)
      (there : plain ∈ name :: members) (isMarked : marked = "@" ++ plain) :
      MarkedClash name members := by
    rcases written marked here with unmarked | ⟨word, reserved, ending, isEnding, isWord⟩
    · rw [isMarked] at unmarked
      exact absurd (by simp [String.toList_append]) unmarked
    · have isPlain : plain = word ++ ending := by
        rw [isMarked, String.append_assoc] at isWord
        exact (String.append_right_inj "@").mp isWord
      refine ⟨word, reserved, ending, isEnding, ?_, isWord ▸ here, isPlain ▸ there⟩
      -- Without an ending the name that is not marked would be a reserved word.
      rintro rfl
      rw [String.append_empty] at isPlain
      exact unreserved plain there (isPlain ▸ reserved)
  rcases eq_marked_of_bare same ne with isMarked | isMarked
  · exact clash here there isMarked
  · exact clash there here isMarked

theorem Legal.not_markedClash (legal : Legal name members) : ¬ MarkedClash name members := by
  rintro ⟨word, reserved, ending, -, -, marked, plain⟩
  have same : bare ("@" ++ word ++ ending) = bare (word ++ ending) := by
    rw [String.append_assoc, bare_marked, bare_of_unmarked (unmarked_reserved reserved ending)]
  have ne : "@" ++ word ++ ending ≠ word ++ ending := by
    intro longer
    simpa [String.append_assoc] using congrArg String.length longer
  rcases List.mem_cons.mp marked with isName | inside <;>
    rcases List.mem_cons.mp plain with isName' | inside'
  · exact ne (isName.trans isName'.symm)
  · exact legal.apart (isName ▸ same ▸ List.mem_map_of_mem inside')
  · exact legal.apart (isName' ▸ same ▸ List.mem_map_of_mem inside)
  · exact ne (List.inj_on_of_nodup_map legal.distinct inside inside' same)

theorem legal_iff (distinct : members.Nodup) (written : ∀ a ∈ name :: members, WellMarked a)
    (unreserved : ∀ a ∈ name :: members, a ∉ reservedWords)
    (numbered : name ∈ members → NumberedClash name members) :
    Legal name members ↔ ¬ NumberedClash name members ∧ ¬ MarkedClash name members := by
  constructor
  · intro legal
    exact ⟨fun clash => legal.apart (List.mem_map_of_mem clash.1), legal.not_markedClash⟩
  · rintro ⟨unnumbered, unmarked⟩
    have inj {a b : String} (here : a ∈ name :: members) (there : b ∈ name :: members)
        (same : bare a = bare b) : a = b := by
      by_contra ne
      exact unmarked (markedClash_of_bare written unreserved here there same ne)
    constructor
    · exact distinct.map_on fun a here b there same =>
        inj (List.mem_cons_of_mem _ here) (List.mem_cons_of_mem _ there) same
    · intro inside
      obtain ⟨a, there, same⟩ := List.mem_map.mp inside
      have isName := inj (List.mem_cons_of_mem _ there) List.mem_cons_self same
      exact unnumbered (numbered (isName ▸ there))

end legal

theorem uniqueNames_zip {α : Type} (name : α → String) (items : List α) :
    ((uniqueNames [] (items.map name)).zip items).map Prod.fst = uniqueNames [] (items.map name) :=
  List.map_fst_zip (by rw [uniqueNames_length, List.length_map])

theorem lowerRecord_members (n : Naming) (settings : Settings) (name : String) (node : Node)
    (properties : List Graph.Property) :
    (lowerRecord n settings name node properties).properties.map (·.name) =
      uniqueNames [] ((properties.map (·.name)).map (memberName settings name)) := by
  simp only [lowerRecord, List.map_map, Function.comp_def]
  exact uniqueNames_zip _ properties

theorem lowerConstants_members (n : Naming) (settings : Settings) (name : String)
    (items : List Graph.Constant) : (lowerConstants n settings name items).fields.map (·.name) =
      uniqueNames [] ((items.map (·.name)).map (memberName settings name)) := by
  simp only [lowerConstants, List.map_map, Function.comp_def]
  exact uniqueNames_zip _ items

theorem lowerDeclaration_members {n : Naming} {settings : Settings} {name : String} {node : Node}
    {decl : Declaration} (lowered : lowerDeclaration n settings name node = some decl) :
    decl.name = name ∧
      decl.members = uniqueNames [] ((sourceNames node.shape).map (memberName settings name)) := by
  cases shape : node.shape with
  | record properties generics =>
    simp only [lowerDeclaration, shape, Option.some_inj] at lowered
    subst lowered
    exact ⟨rfl, lowerRecord_members n settings name node properties⟩
  | constants items =>
    simp only [lowerDeclaration, shape, Option.some_inj] at lowered
    subst lowered
    exact ⟨rfl, lowerConstants_members n settings name items⟩
  | dictionary _ _ _ | instantiation _ _ _ | tuple _ _ | stringUnion _ | classUnion _ =>
    simp only [lowerDeclaration, shape, Option.some_inj] at lowered
    subst lowered
    exact ⟨rfl, rfl⟩
  | array _ _ | primitive _ | classUnionInstance _ _ =>
    simp only [lowerDeclaration, shape, reduceCtorEq] at lowered

/-- The members of every class of a file have different names, and they are different identifiers
and not that of the class either, exactly if no number makes a member's name that of the class and
no reserved word with an ending is there both with its mark and without. Whether it comes to that
can be told from the names that the node of the class has for its members. -/
theorem lowerFile_legal_iff {g : Graph} {settings : Settings} {decl : Declaration}
    (inside : decl ∈ (lowerFile g settings).declarations) :
    decl.members.Nodup ∧
    (Legal decl.name decl.members ↔
      ¬ NumberedClash decl.name decl.members ∧ ¬ MarkedClash decl.name decl.members) ∧
    ∃ id node, (id, node) ∈ declaredNodes g ∧
      (decl.name = declarationName settings node ∨
        ∃ number : Nat, decl.name = declarationName settings node ++ toString (number + 1)) ∧
      (NumberedClash decl.name decl.members ↔
        NumberedSource settings decl.name (sourceNames node.shape)) ∧
      (MarkedClash decl.name decl.members ↔
        MarkedSource settings decl.name (sourceNames node.shape)) := by
  obtain ⟨id, node, name, declared, found, lowered⟩ := mem_lowerFile.mp inside
  obtain ⟨rfl, named⟩ := lowerDeclaration_members lowered
  rw [named]
  have unreserved := Naming.of_not_reserved found
  refine ⟨(uniqueNames_nodup _ _).1, ?_, id, node, declared, Naming.of_cases declared found,
    ⟨fun clash => numberedSource_of_mem clash.1, NumberedSource.clash⟩,
    markedClash_iff unreserved⟩
  refine legal_iff (uniqueNames_nodup _ _).1 ?_ ?_
    fun member => (numberedSource_of_mem member).clash
  · refine List.forall_mem_cons.mpr ⟨Naming.of_wellMarked found, fun name member => ?_⟩
    exact (mem_uniqueNames_iff.mp member).wellMarked
      fun source _ => memberName_cases settings decl.name source
  · exact List.forall_mem_cons.mpr ⟨unreserved,
      fun name member => memberName_not_reserved (mem_uniqueNames_iff.mp member)⟩

def stringClass (name : String) (properties : List String) : Graph :=
  Graph.Operation.runAll Sha256.hex .empty [
    .primitive .string,
    .register {
      name := name
      shape := .record
        (properties.map fun own => ⟨own, ⟨.node 0, 0, []⟩, false, false, none, none⟩) [] }]

theorem lowerFile_legal_iff_numbered :
    ∃ decl ∈ (lowerFile (stringClass "Foo1" ["bar", "Bar", "foo1", "foo"]) {}).declarations,
      decl.name = "Foo1" ∧ decl.members = ["Bar", "Bar1", "Foo1Value", "Foo"] ∧
      decl.members.Nodup ∧
      (Legal decl.name decl.members ↔
        ¬ NumberedClash decl.name decl.members ∧ ¬ MarkedClash decl.name decl.members) ∧
      ∃ id node, (id, node) ∈ declaredNodes (stringClass "Foo1" ["bar", "Bar", "foo1", "foo"]) ∧
        (decl.name = declarationName {} node ∨
          ∃ number : Nat, decl.name = declarationName {} node ++ toString (number + 1)) ∧
        (NumberedClash decl.name decl.members ↔
          NumberedSource {} decl.name (sourceNames node.shape)) ∧
        (MarkedClash decl.name decl.members ↔
          MarkedSource {} decl.name (sourceNames node.shape)) := by
  have known : (lowerFile (stringClass "Foo1" ["bar", "Bar", "foo1", "foo"]) {}).declarations.any
      (fun decl => decl.name == "Foo1" && decl.members == ["Bar", "Bar1", "Foo1Value", "Foo"]) =
        true := by
    decide +kernel
  obtain ⟨decl, inside, both⟩ := List.any_eq_true.mp known
  rw [Bool.and_eq_true, beq_iff_eq, beq_iff_eq] at both
  exact ⟨decl, inside, both.1, both.2, lowerFile_legal_iff inside⟩

/-- The number of the second property makes its name that of the class, and the number of a reserved
word makes two names one identifier. -/
theorem lowerFile_illegal :
    (∃ decl ∈ (lowerFile (stringClass "Foo1" ["foo", "Foo"]) {}).declarations,
      decl.members = ["Foo", "Foo1"] ∧ ¬ Legal decl.name decl.members) ∧
    (∃ decl ∈ (lowerFile (stringClass "User" ["class", "class1", "Class"])
        { propertyCasing := .camel }).declarations,
      decl.members = ["@class", "class1", "@class1"] ∧ ¬ Legal decl.name decl.members) := by
  constructor
  · have known : (lowerFile (stringClass "Foo1" ["foo", "Foo"]) {}).declarations.any
        (fun decl => decl.name == "Foo1" && decl.members == ["Foo", "Foo1"]) = true := by
      decide +kernel
    obtain ⟨decl, inside, both⟩ := List.any_eq_true.mp known
    rw [Bool.and_eq_true, beq_iff_eq, beq_iff_eq] at both
    refine ⟨decl, inside, both.2, fun legal => legal.apart ?_⟩
    rw [both.1, both.2]
    decide
  · have known : (lowerFile (stringClass "User" ["class", "class1", "Class"])
        { propertyCasing := .camel }).declarations.any
        (fun decl => decl.members == ["@class", "class1", "@class1"]) = true := by
      decide +kernel
    obtain ⟨decl, inside, named⟩ := List.any_eq_true.mp known
    rw [beq_iff_eq] at named
    refine ⟨decl, inside, named, fun legal => ?_⟩
    have distinct := legal.distinct
    rw [named] at distinct
    exact absurd distinct (by decide)

end TypeLoom.Code
