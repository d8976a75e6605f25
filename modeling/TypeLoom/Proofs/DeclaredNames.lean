import TypeLoom.Code.Lower
import TypeLoom.Proofs.Retention

/-! Names of the declarations of a file. Every declared node that is retained gets a name, no two
get the same one, and what is written for a node is a declaration of its name with as many type
parameters as the node has. -/
namespace TypeLoom

namespace Table
variable {κ ν : Type} [DecidableEq κ] {t : Table κ ν} {key : κ} {value : ν}

theorem mem_entries_of_get? (found : t.get? key = some value) : (key, value) ∈ t.entries := by
  obtain ⟨entry, first, rfl⟩ := Option.map_eq_some_iff.mp found
  have same : entry.1 = key := by simpa using List.find?_some first
  rw [← same]
  exact List.mem_of_find?_eq_some first

theorem exists_get?_of_mem_entries (member : (key, value) ∈ t.entries) :
    ∃ found, t.get? key = some found := by
  rw [← contains_iff_get?, contains, List.any_eq_true]
  exact ⟨(key, value), member, decide_eq_true rfl⟩

end Table

namespace Code
open TypeLoom.Graph (Node Shape)

theorem numbered_inj {base : String} {m n : Nat} (same : base ++ toString m = base ++ toString n) :
    m = n := by
  have digits := (String.append_right_inj base).mp same
  simp only [Nat.toString_eq_ofList_toDigits, String.ofList_inj] at digits
  have number := congrArg (fun digits => Nat.ofDigitChars 10 digits 0) digits
  simpa only [Nat.ofDigitChars_toDigits (by decide : 1 < 10) (by decide : 10 ≤ 10)] using number

/-- `used` has all names from `number` on that are taken; a name that was tried is left out. -/
theorem freeNumbered_not_mem {taken : List String} {base : String} {steps number : Nat}
    (used : List String) (listed : ∀ k, number ≤ k → base ++ toString k ∈ taken →
      base ++ toString k ∈ used) (few : used.length ≤ steps) :
    freeNumbered taken base steps number ∉ taken := by
  induction steps generalizing number used with
  | zero =>
    intro member
    have inside := listed number le_rfl member
    rw [List.length_eq_zero_iff.mp (Nat.le_zero.mp few)] at inside
    cases inside
  | succ steps ih =>
    rw [freeNumbered]
    split_ifs with inUse
    · have inside := listed number le_rfl (List.contains_iff_mem.mp inUse)
      apply ih (used.erase (base ++ toString number))
      · intro k later member
        have ne : base ++ toString k ≠ base ++ toString number := by
          intro same
          have := numbered_inj same
          omega
        exact (List.mem_erase_of_ne ne).mpr (listed k (by omega) member)
      · have shorter := List.length_erase_of_mem inside
        omega
    · exact fun member => inUse (List.contains_iff_mem.mpr member)

theorem uniqueName_not_mem (taken : List String) (base : String) :
    uniqueName taken base ∉ taken := by
  rw [uniqueName]
  split_ifs with inUse
  · exact freeNumbered_not_mem taken (fun _ _ member => member) le_rfl
  · exact fun member => inUse (List.contains_iff_mem.mpr member)

theorem uniqueNames_nodup (taken bases : List String) :
    (uniqueNames taken bases).Nodup ∧ ∀ name ∈ uniqueNames taken bases, name ∉ taken := by
  induction bases generalizing taken with
  | nil => simp [uniqueNames]
  | cons base rest ih =>
    obtain ⟨distinct, fresh⟩ := ih (uniqueName taken base :: taken)
    rw [uniqueNames]
    refine ⟨List.nodup_cons.mpr ⟨fun member => fresh _ member List.mem_cons_self, distinct⟩, ?_⟩
    intro name member
    rcases List.mem_cons.mp member with rfl | later
    · exact uniqueName_not_mem taken base
    · exact fun old => fresh name later (List.mem_cons_of_mem _ old)

theorem uniqueNames_length (taken bases : List String) :
    (uniqueNames taken bases).length = bases.length := by
  induction bases generalizing taken with
  | nil => rfl
  | cons base rest ih => simp [uniqueNames, ih]

/-- Names that are in use once the sources are named in turn: the own name of each, and that with a
number if it and all smaller numbers were in use before. -/
inductive InUse {α : Type} (own : α → String) : List α → String → Prop
  | plain (before : List α) (source : α) (after : List α) :
    InUse own (before ++ source :: after) (own source)
  | numbered (before : List α) (source : α) (after : List α) (number : Nat)
    (taken : InUse own before (own source))
    (smaller : ∀ k < number, InUse own before (own source ++ toString (k + 1))) :
    InUse own (before ++ source :: after) (own source ++ toString (number + 1))

theorem InUse.append {α : Type} {own : α → String} {sources : List α} {name : String}
    (inUse : InUse own sources name) (later : List α) : InUse own (sources ++ later) name := by
  cases inUse with
  | plain before source after =>
    rw [List.append_assoc, List.cons_append]
    exact .plain before source (after ++ later)
  | numbered before source after number taken smaller =>
    rw [List.append_assoc, List.cons_append]
    exact .numbered before source (after ++ later) number taken smaller

theorem InUse.exists_source {α : Type} {own : α → String} {sources : List α} {name : String}
    (inUse : InUse own sources name) : ∃ before source after, sources = before ++ source :: after ∧
      (name = own source ∨ ∃ number : Nat, name = own source ++ toString (number + 1) ∧
        InUse own before (own source) ∧
        ∀ k < number, InUse own before (own source ++ toString (k + 1))) := by
  cases inUse with
  | plain before source after => exact ⟨before, source, after, rfl, .inl rfl⟩
  | numbered before source after number taken smaller =>
    exact ⟨before, source, after, rfl, .inr ⟨number, rfl, taken, smaller⟩⟩

theorem freeNumbered_least (taken : List String) (base : String) (steps number : Nat) :
    ∃ k : Nat, freeNumbered taken base steps number = base ++ toString (number + k) ∧
      ∀ j < k, base ++ toString (number + j) ∈ taken := by
  induction steps generalizing number with
  | zero => exact ⟨0, rfl, nofun⟩
  | succ steps ih =>
    rw [freeNumbered]
    split_ifs with inUse
    · obtain ⟨k, found, smaller⟩ := ih (number + 1)
      refine ⟨k + 1, by rw [found, Nat.add_assoc, Nat.add_comm 1], fun j lt => ?_⟩
      cases j with
      | zero => exact List.contains_iff_mem.mp inUse
      | succ j =>
        rw [Nat.add_comm j, ← Nat.add_assoc]
        exact smaller j (by omega)
    · exact ⟨0, rfl, nofun⟩

theorem uniqueName_cases (taken : List String) (base : String) : uniqueName taken base = base ∨
    ∃ number : Nat, uniqueName taken base = base ++ toString (number + 1) ∧ base ∈ taken ∧
      ∀ k < number, base ++ toString (k + 1) ∈ taken := by
  rw [uniqueName]
  split_ifs with inUse
  · obtain ⟨number, found, smaller⟩ := freeNumbered_least taken base taken.length 1
    refine .inr ⟨number, ?_, List.contains_iff_mem.mp inUse, fun k lt => ?_⟩
    · rw [found, Nat.add_comm]
    · rw [Nat.add_comm]
      exact smaller k lt
  · exact .inl rfl

/-- A name whose smaller numbers are all taken is taken as well, or it is given out now. -/
theorem mem_cons_uniqueName {taken : List String} {base : String} (inUse : base ∈ taken)
    {number : Nat} (smaller : ∀ k < number, base ++ toString (k + 1) ∈ taken) :
    base ++ toString (number + 1) ∈ uniqueName taken base :: taken := by
  have fresh := uniqueName_not_mem taken base
  rw [List.mem_cons]
  rcases uniqueName_cases taken base with same | ⟨given, found, -, below⟩
  · rw [same] at fresh
    exact absurd inUse fresh
  · rcases Nat.lt_trichotomy given number with lt | rfl | gt
    · rw [found] at fresh
      exact absurd (smaller given lt) fresh
    · exact .inl found.symm
    · exact .inr (below number gt)

theorem uniqueNames_append (taken first second : List String) :
    uniqueNames taken (first ++ second) =
      uniqueNames taken first ++
        uniqueNames ((uniqueNames taken first).reverse ++ taken) second := by
  induction first generalizing taken with
  | nil => rfl
  | cons base rest ih => simp [uniqueNames, ih]

theorem mem_uniqueNames_concat {before : List String} {base name : String} :
    name ∈ uniqueNames [] (before ++ [base]) ↔
      name ∈ uniqueName (uniqueNames [] before).reverse base ::
        (uniqueNames [] before).reverse := by
  rw [uniqueNames_append, List.append_nil, uniqueNames, uniqueNames, List.mem_append,
    List.mem_singleton, List.mem_cons, List.mem_reverse, or_comm]

/-- One after another, sources are given the names that are in use. -/
theorem mem_uniqueNames_iff {α : Type} {own : α → String} {sources : List α} {name : String} :
    name ∈ uniqueNames [] (sources.map own) ↔ InUse own sources name := by
  constructor
  · intro member
    induction sources using List.reverseRecOn generalizing name with
    | nil => cases member
    | append_singleton before source ih =>
      rw [List.map_append, List.map_singleton, mem_uniqueNames_concat, List.mem_cons,
        List.mem_reverse] at member
      rcases member with rfl | earlier
      · rcases uniqueName_cases (uniqueNames [] (before.map own)).reverse (own source) with
          same | ⟨number, found, taken, smaller⟩
        · rw [same]
          exact .plain before source []
        · rw [found]
          exact .numbered before source [] number (ih (List.mem_reverse.mp taken))
            fun k lt => ih (List.mem_reverse.mp (smaller k lt))
      · exact (ih earlier).append [source]
  · intro inUse
    -- What is in use once a source has its name remains so.
    have kept {before : List α} {source : α} {name : String} (after : List α)
        (there : name ∈ uniqueNames [] (before.map own ++ [own source])) :
        name ∈ uniqueNames [] ((before ++ source :: after).map own) := by
      rw [List.append_cons, List.map_append, List.map_append, List.map_singleton,
        uniqueNames_append]
      exact List.mem_append_left _ there
    induction inUse with
    | plain before source after =>
      refine kept after (mem_uniqueNames_concat.mpr ?_)
      rcases uniqueName_cases (uniqueNames [] (before.map own)).reverse (own source) with
        same | ⟨_, -, taken, -⟩
      · rw [same]
        exact List.mem_cons_self
      · exact List.mem_cons_of_mem _ taken
    | numbered before source after number taken smaller ihTaken ihSmaller =>
      refine kept after (mem_uniqueNames_concat.mpr (mem_cons_uniqueName ?_ fun k lt => ?_))
      · exact List.mem_reverse.mpr ihTaken
      · exact List.mem_reverse.mpr (ihSmaller k lt)

theorem mem_zip_uniqueNames {α : Type} {own : α → String} {sources : List α} {taken : List String}
    {source : α} {name : String}
    (listed : (source, name) ∈ sources.zip (uniqueNames taken (sources.map own))) :
    name = own source ∨ ∃ number : Nat, name = own source ++ toString (number + 1) := by
  induction sources generalizing taken with
  | nil => cases listed
  | cons first rest ih =>
    rw [List.map_cons, uniqueNames, List.zip_cons_cons, List.mem_cons, Prod.mk.injEq] at listed
    rcases listed with ⟨rfl, rfl⟩ | later
    · exact (uniqueName_cases taken (own source)).imp_right
        fun ⟨number, found, _⟩ => ⟨number, found⟩
    · exact ih later

theorem Node.isSome_declarationKind? {node : Node} (declared : node.isDeclared = true) :
    node.shape.declarationKind?.isSome = true := by
  rw [Graph.Node.isDeclared] at declared
  cases shape : node.shape <;> rw [shape] at declared <;> first | rfl | exact declared

theorem mem_declarations {g : Graph} {id : NodeId} : id ∈ g.declarations ↔
    ∃ node, (id, node) ∈ g.retainedNodes ∧ node.isDeclared = true := by
  simp only [Graph.declarations, List.mem_map, List.mem_mergeSort, Graph.declarationKeys,
    List.mem_filterMap, Graph.retainedNodes, List.mem_filter]
  constructor
  · rintro ⟨key, ⟨entry, live, listed⟩, rfl⟩
    split_ifs at listed with kept
    obtain ⟨kind, -, rfl⟩ := Option.map_eq_some_iff.mp listed
    rw [Bool.and_eq_true] at kept
    exact ⟨entry.2, ⟨live, kept.1⟩, kept.2⟩
  · rintro ⟨node, ⟨live, retained⟩, declared⟩
    obtain ⟨kind, isKind⟩ := Option.isSome_iff_exists.mp (Node.isSome_declarationKind? declared)
    refine ⟨⟨kind.rank, node.name, id⟩, ⟨(id, node), live, ?_⟩, rfl⟩
    simp [retained, declared, isKind]

theorem mem_declaredNodes {g : Graph} {id : NodeId} {node : Node} :
    (id, node) ∈ declaredNodes g ↔ (id, node) ∈ g.retainedNodes ∧ node.isDeclared = true := by
  have found {other : Node} (kept : (id, other) ∈ g.retainedNodes) : g.node? id = some other := by
    obtain ⟨⟨live, there⟩, -⟩ := Graph.mem_retainedNodes.mp kept
    rw [Graph.node?, Graph.resolve_of_isLive live, there]
  rw [declaredNodes, List.mem_filterMap]
  constructor
  · intro member
    obtain ⟨other, listed, isNode⟩ := member
    obtain ⟨own, there, same⟩ := Option.map_eq_some_iff.mp isNode
    cases same
    obtain ⟨before, kept, declared⟩ := mem_declarations.mp listed
    rw [found kept, Option.some_inj] at there
    exact there ▸ ⟨kept, declared⟩
  · intro member
    refine ⟨id, mem_declarations.mpr ⟨node, member⟩, ?_⟩
    rw [found member.1, Option.map_some]

section naming
variable {g : Graph} {settings : Settings}

theorem Naming.of_entries (g : Graph) (settings : Settings) : (Naming.of g settings).names.entries =
    ((declaredNodes g).map Prod.fst).zip
      (uniqueNames [] ((declaredNodes g).map fun entry => declarationName settings entry.2)) := rfl

theorem Naming.exists_name (settings : Settings) {id : NodeId} {node : Node}
    (declared : (id, node) ∈ declaredNodes g) :
    ∃ name, (Naming.of g settings).names.get? id = some name := by
  have listed : id ∈ (declaredNodes g).map Prod.fst := List.mem_map_of_mem declared
  obtain ⟨place, there⟩ := List.mem_iff_getElem?.mp listed
  have lt := (List.getElem?_eq_some_iff.mp there).1
  have inside : place < (uniqueNames [] ((declaredNodes g).map
      fun entry => declarationName settings entry.2)).length := by
    rw [uniqueNames_length, List.length_map]
    simpa using lt
  have member : (id, _) ∈ (Naming.of g settings).names.entries :=
    List.mem_iff_getElem?.mpr ⟨place, List.getElem?_zip_eq_some.mpr
      ⟨there, List.getElem?_eq_getElem inside⟩⟩
  exact Table.exists_get?_of_mem_entries member

theorem Naming.eq_of_name {a b : NodeId} {name : String}
    (foundA : (Naming.of g settings).names.get? a = some name)
    (foundB : (Naming.of g settings).names.get? b = some name) : a = b := by
  have listedA := Table.mem_entries_of_get? foundA
  have listedB := Table.mem_entries_of_get? foundB
  rw [Naming.of_entries] at listedA listedB
  obtain ⟨i, there⟩ := List.mem_iff_getElem?.mp listedA
  obtain ⟨j, here⟩ := List.mem_iff_getElem?.mp listedB
  rw [List.getElem?_zip_eq_some] at there here
  -- Equal names stand at equal places.
  have distinct := (uniqueNames_nodup []
    ((declaredNodes g).map fun entry => declarationName settings entry.2)).1
  have same : i = j := by
    obtain ⟨lt, isName⟩ := List.getElem?_eq_some_iff.mp there.2
    obtain ⟨lt', isName'⟩ := List.getElem?_eq_some_iff.mp here.2
    exact (distinct.getElem_inj_iff).mp (isName.trans isName'.symm)
  rw [same, here.1, Option.some_inj] at there
  exact there.1.symm

end naming

def Declaration.name : Declaration → String
  | .record decl => decl.name
  | .enumeration decl => decl.name
  | .constants decl => decl.name
  | .union decl => decl.name

def Declaration.arity : Declaration → Nat
  | .record decl => decl.generics.length
  | .enumeration _ | .constants _ => 0
  | .union decl => decl.arity

/-- Number of types that a use of a node names. -/
def arity : Shape → Nat
  | .classUnion arity => arity
  | shape => shape.generics.length

theorem lowerDeclaration_of_declared (n : Naming) (settings : Settings) (name : String)
    {node : Node}
    (declared : node.isDeclared = true) :
    ∃ decl, lowerDeclaration n settings name node = some decl ∧
      decl.name = name ∧ decl.arity = arity node.shape := by
  have kind := Node.isSome_declarationKind? declared
  rw [lowerDeclaration]
  cases shape : node.shape <;> rw [shape] at kind <;>
    simp [Shape.declarationKind?] at kind <;>
    refine ⟨_, rfl, rfl, ?_⟩ <;>
    simp [Declaration.arity, arity, lowerRecord, derivedClass, Shape.generics, shape]

theorem mem_lowerFile {g : Graph} {settings : Settings} {decl : Declaration} :
    decl ∈ (lowerFile g settings).declarations ↔ ∃ id node name, (id, node) ∈ declaredNodes g ∧
      (Naming.of g settings).names.get? id = some name ∧
      lowerDeclaration (Naming.of g settings) settings name node = some decl := by
  have listed : (lowerFile g settings).declarations = (declaredNodes g).filterMap fun entry =>
      ((Naming.of g settings).names.get? entry.1).bind fun name =>
        lowerDeclaration (Naming.of g settings) settings name entry.2 := rfl
  rw [listed, List.mem_filterMap]
  constructor
  · intro member
    obtain ⟨entry, declared, lowered⟩ := member
    obtain ⟨name, found, isDecl⟩ := Option.bind_eq_some_iff.mp lowered
    exact ⟨entry.1, entry.2, name, declared, found, isDecl⟩
  · intro member
    obtain ⟨id, node, name, declared, found, isDecl⟩ := member
    exact ⟨(id, node), declared, Option.bind_eq_some_iff.mpr ⟨name, found, isDecl⟩⟩

theorem lowerFile_declaration {g : Graph} {settings : Settings} {id : NodeId} {node : Node}
    (declared : (id, node) ∈ declaredNodes g) {name : String}
    (found : (Naming.of g settings).names.get? id = some name) :
    ∃ decl ∈ (lowerFile g settings).declarations,
      lowerDeclaration (Naming.of g settings) settings name node = some decl ∧
      decl.name = name ∧ decl.arity = arity node.shape ∧
      ∀ other ∈ (lowerFile g settings).declarations, other.name = name → other = decl := by
  have isDeclared := (mem_declaredNodes.mp declared).2
  obtain ⟨decl, lowered, isName, isArity⟩ :=
    lowerDeclaration_of_declared (Naming.of g settings) settings name isDeclared
  refine ⟨decl, mem_lowerFile.mpr ⟨id, node, name, declared, found, lowered⟩, lowered, isName,
    isArity, fun other inside named => ?_⟩
  obtain ⟨id', node', name', declared', found', lowered'⟩ := mem_lowerFile.mp inside
  obtain ⟨kept', isDeclared'⟩ := mem_declaredNodes.mp declared'
  obtain ⟨decl', same, own, -⟩ :=
    lowerDeclaration_of_declared (Naming.of g settings) settings name' isDeclared'
  rw [lowered', Option.some_inj] at same
  rw [← same, named] at own
  subst own
  have here : id' = id := Naming.eq_of_name found' found
  subst here
  have there := (Graph.mem_retainedNodes.mp kept').1.2
  rw [(Graph.mem_retainedNodes.mp (mem_declaredNodes.mp declared).1).1.2, Option.some_inj] at there
  rw [← there, lowered, Option.some_inj] at lowered'
  exact lowered'.symm

end Code

end TypeLoom
