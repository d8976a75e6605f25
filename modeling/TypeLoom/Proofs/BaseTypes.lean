import TypeLoom.Proofs.WritingStates

/-! Base classes. A dictionary, a tuple or an instantiation with a name becomes a class that only
gives a name to its base. The base of an instantiation is whatever its own base is written as, be it
an array or a keyword, so it can be inherited from exactly if the node at the end is a class, and if
neither a type parameter nor an enum hides the name of this class. -/
namespace TypeLoom

namespace Code
open TypeLoom.Graph (Node Shape)

/-- Classes and families of classes; the others have no type parameters. -/
def Declaration.isClass : Declaration → Bool
  | .record _ | .union _ => true
  | .enumeration _ | .constants _ => false

theorem Declaration.arity_of_not_class {decl : Declaration} (other : decl.isClass = false) :
    decl.arity = 0 := by
  cases decl with
  | record _ | union _ => cases other
  | enumeration _ | constants _ => rfl

/-- The declaration that a name with so many arguments refers to. -/
def File.lookup (file : File) (name : String) (arity : Nat) : Option Declaration :=
  file.declarations.find? fun decl => decl.name == name && decl.arity == arity

/-- Whether a class of the file can inherit from a type: neither an array nor a keyword nor a type
parameter of the class, but a class of the file or else of the library. -/
def Inheritable (file : File) (c : Class) : TypeRef → Prop
  | .array _ => False
  | .named name arguments =>
    name ∉ reservedWords ∧ ¬ (arguments = [] ∧ name ∈ c.generics) ∧
      match file.lookup name arguments.length with
      | some decl => decl.isClass = true
      | none => name = "Dictionary" ∨ name = "Tuple"

/-- A name without arguments that a type parameter of the class has, or a declaration that is no
class. -/
def Hidden (file : File) (c : Class) (b : TypeRef) : Prop :=
  ∃ name, b = .plain name ∧
    (name ∈ c.generics ∨ ∃ decl ∈ file.declarations, decl.name = name ∧ decl.isClass = false)

/-- Declarations have names of their own, and no keywords. -/
structure File.Regular (file : File) : Prop where
  unique : ∀ decl ∈ file.declarations, ∀ other ∈ file.declarations, other.name = decl.name →
    other = decl
  unreserved : ∀ decl ∈ file.declarations, decl.name ∉ reservedWords

theorem File.lookup_eq_some {file : File} {name : String} {arity : Nat} {decl : Declaration}
    (found : file.lookup name arity = some decl) :
    decl ∈ file.declarations ∧ decl.name = name ∧ decl.arity = arity := by
  have both := List.find?_some found
  rw [Bool.and_eq_true, beq_iff_eq, beq_iff_eq] at both
  exact ⟨List.mem_of_find?_eq_some found, both⟩

theorem File.Regular.lookup {file : File} (regular : file.Regular) {decl : Declaration}
    (inside : decl ∈ file.declarations) : file.lookup decl.name decl.arity = some decl := by
  cases found : file.lookup decl.name decl.arity with
  | none => simpa using List.find?_eq_none.mp found decl inside
  | some other =>
    obtain ⟨there, named, -⟩ := lookup_eq_some found
    rw [regular.unique decl inside other there named]

/-- What a base comes to: a keyword, an array, a class of the library or a declaration. -/
inductive BaseForm (file : File) : Bool → TypeRef → Prop
  | keyword (kind : Primitive) : BaseForm file false (primitiveType kind)
  | array (element : TypeRef) : BaseForm file false (.array element)
  | library {name : String} (known : name = "Dictionary" ∨ name = "Tuple")
      (arguments : List TypeRef) : BaseForm file true (.named name arguments)
  | declared {decl : Declaration} (inside : decl ∈ file.declarations) {arguments : List TypeRef}
      (length : arguments.length = decl.arity) :
      BaseForm file decl.isClass (.named decl.name arguments)

theorem not_inheritable_primitiveType (file : File) (c : Class) (kind : Primitive) :
    ¬ Inheritable file c (primitiveType kind) := by
  intro inheritable
  cases kind <;> exact absurd inheritable.1 (by decide +kernel)

theorem Inheritable.not_hidden {file : File} (regular : file.Regular) {c : Class} {b : TypeRef}
    (inheritable : Inheritable file c b) : ¬ Hidden file c b := by
  rintro ⟨name, rfl, parameter | ⟨decl, inside, rfl, other⟩⟩
  · exact inheritable.2.1 ⟨rfl, parameter⟩
  · have found := regular.lookup inside
    rw [Declaration.arity_of_not_class other] at found
    have isClass := inheritable.2.2
    rw [List.length_nil, found] at isClass
    exact Bool.false_ne_true (other.symm.trans isClass)

theorem BaseForm.inheritable_iff {file : File} (regular : file.Regular) (c : Class) {isClass : Bool}
    {b : TypeRef} (form : BaseForm file isClass b) :
    Inheritable file c b ↔ isClass = true ∧ ¬ Hidden file c b := by
  cases form with
  | keyword kind => simp [not_inheritable_primitiveType]
  | array element => simp [Inheritable]
  | @library name known arguments =>
    refine ⟨fun inheritable => ⟨rfl, inheritable.not_hidden regular⟩, ?_⟩
    rintro ⟨-, seen⟩
    refine ⟨?_, ?_, ?_⟩
    · rcases known with rfl | rfl <;> decide +kernel
    · rintro ⟨rfl, parameter⟩
      exact seen ⟨name, rfl, .inl parameter⟩
    · cases found : file.lookup name arguments.length with
      | none => exact known
      | some decl =>
        obtain ⟨inside, named, length⟩ := File.lookup_eq_some found
        by_contra other
        rw [Bool.not_eq_true] at other
        rw [Declaration.arity_of_not_class other] at length
        obtain rfl := List.length_eq_zero_iff.mp length.symm
        exact seen ⟨name, rfl, .inr ⟨decl, inside, named, other⟩⟩
  | @declared decl inside arguments length =>
    have found := regular.lookup inside
    rw [← length] at found
    constructor
    · intro inheritable
      refine ⟨?_, inheritable.not_hidden regular⟩
      have isClass := inheritable.2.2
      rwa [found] at isClass
    · rintro ⟨isClass, seen⟩
      refine ⟨regular.unreserved decl inside, ?_, ?_⟩
      · rintro ⟨rfl, parameter⟩
        exact seen ⟨decl.name, rfl, .inl parameter⟩
      · rwa [found]

theorem identifier_not_reserved (name : String) : identifier name ∉ reservedWords := by
  have unmarked : reservedWords.all (fun word => word.toList.head? != some '@') = true := by
    decide +kernel
  rw [identifier]
  split_ifs with reserved
  · intro member
    simpa using List.all_eq_true.mp unmarked _ member
  · exact reserved ∘ List.contains_iff_mem.mpr

theorem numbered_not_reserved (base : String) (number : Nat) :
    base ++ toString number ∉ reservedWords := by
  have letters : reservedWords.all (fun word => word.toList.getLast?.all (!·.isDigit)) = true := by
    decide +kernel
  intro member
  obtain ⟨c, last, digit⟩ := Graph.numbered_getLast? base number
  have letter := List.all_eq_true.mp letters _ member
  rw [last] at letter
  simp [digit] at letter

theorem InUse.not_reserved {α : Type} {own : α → String} {sources : List α} {name : String}
    (inUse : InUse own sources name) (unreserved : ∀ source ∈ sources, own source ∉ reservedWords) :
    name ∉ reservedWords := by
  cases inUse with
  | plain before source after => exact unreserved source (by simp)
  | numbered before source after number => exact numbered_not_reserved (own source) (number + 1)

theorem Naming.of_not_reserved {g : Graph} {settings : Settings} {id : NodeId} {name : String}
    (found : (Naming.of g settings).names.get? id = some name) : name ∉ reservedWords := by
  have listed := Table.mem_entries_of_get? found
  rw [Naming.of_entries] at listed
  refine (mem_uniqueNames_iff.mp (List.of_mem_zip listed).2).not_reserved fun entry _ => ?_
  rw [declarationName]
  split <;> exact identifier_not_reserved _

theorem lowerFile_regular (g : Graph) (settings : Settings) : (lowerFile g settings).Regular := by
  have listed : ∀ decl ∈ (lowerFile g settings).declarations, ∃ id node,
      (id, node) ∈ declaredNodes g ∧ (Naming.of g settings).names.get? id = some decl.name := by
    intro decl inside
    obtain ⟨id, node, name, declared, found, lowered⟩ := mem_lowerFile.mp inside
    obtain ⟨other, same, named, -⟩ := lowerDeclaration_of_declared (Naming.of g settings) settings
      name (mem_declaredNodes.mp declared).2
    obtain rfl := Option.some.inj (lowered.symm.trans same)
    exact ⟨id, node, declared, named ▸ found⟩
  constructor
  · intro decl inside other there named
    obtain ⟨id, node, declared, found⟩ := listed decl inside
    obtain ⟨first, -, -, -, -, only⟩ := lowerFile_declaration declared found
    rw [only other there named, only decl inside rfl]
  · intro decl inside
    obtain ⟨id, node, declared, found⟩ := listed decl inside
    exact Naming.of_not_reserved found

def isClassShape : Shape → Bool
  | .record .. | .dictionary .. | .tuple .. | .instantiation .. | .classUnion _ => true
  | .array .. | .stringUnion _ | .primitive _ | .constants _ | .classUnionInstance .. => false

def Manner.Fits (node : Node) : Manner → Prop
  | .keyword _ | .array _ _ => isClassShape node.shape = false
  | .inPlace (.node _ _) => True
  | .inPlace (.dictionary _ _) | .inPlace (.tuple _) => isClassShape node.shape = true
  | .inPlace (.array _ _) | .inPlace (.default _) => False
  | .byName _ => node.isDeclared = true ∨ node.shape = .constants []

theorem manner_fits (node : Node) : (manner node).Fits node := by
  rw [manner]
  cases shape : node.shape with
  | dictionary _ _ _ | tuple _ _ | instantiation _ _ _ =>
    cases anonymous : node.flags.anonymous <;>
      simp [Manner.Fits, isClassShape, Graph.Node.isDeclared, shape, anonymous]
  | constants items => cases items <;> simp [Manner.Fits, Graph.Node.isDeclared, shape]
  | _ => simp [Manner.Fits, isClassShape, Graph.Node.isDeclared, Shape.declarationKind?, shape]

theorem base?_of_manner {node : Node} {base : NodeId} {arguments : List TypeUse}
    (next : manner node = .inPlace (.node base arguments)) : node.shape.base? = some base := by
  rw [manner] at next
  cases shape : node.shape with
  | dictionary _ _ _ | tuple _ _ | instantiation _ _ _ =>
    rw [shape] at next
    cases anonymous : node.flags.anonymous <;> rw [anonymous] at next <;> cases next <;> rfl
  | _ =>
    rw [shape] at next
    cases next <;> rfl

/-- The node at this place is written as another one, which is so many places further on. -/
inductive EndsAt (g : Graph) : Nat → NodeId → Node → Prop
  | own {id : NodeId} {node : Node} (found : g.nodes[id]? = some node)
      (own : ∀ base arguments, manner node ≠ .inPlace (.node base arguments)) : EndsAt g 0 id node
  | step {id base : NodeId} {node root : Node} {arguments : List TypeUse} {steps : Nat}
      (found : g.nodes[id]? = some node) (next : manner node = .inPlace (.node base arguments))
      (rest : EndsAt g steps (g.resolve base) root) : EndsAt g (steps + 1) id root

theorem EndsAt.unique {g : Graph} {id : NodeId} {steps steps' : Nat} {root root' : Node}
    (ends : EndsAt g steps id root) (ends' : EndsAt g steps' id root') :
    steps = steps' ∧ root = root' := by
  induction ends generalizing steps' with
  | own found own =>
    cases ends' with
    | own found' => exact ⟨rfl, Option.some.inj (found.symm.trans found')⟩
    | step found' next =>
      obtain rfl := Option.some.inj (found.symm.trans found')
      exact absurd next (own _ _)
  | step found next rest ih =>
    cases ends' with
    | own found' own =>
      obtain rfl := Option.some.inj (found.symm.trans found')
      exact absurd next (own _ _)
    | step found' next' rest' =>
      obtain rfl := Option.some.inj (found.symm.trans found')
      cases next.symm.trans next'
      obtain ⟨rfl, rfl⟩ := ih rest'
      exact ⟨rfl, rfl⟩

/-- Nodes that are all further from the end than this one. -/
def Behind (g : Graph) (steps : Nat) (stack : List NodeId) : Prop :=
  ∀ other ∈ stack, ∃ further last, steps < further ∧ EndsAt g further other last

theorem EndsAt.not_mem_of_behind {g : Graph} {steps : Nat} {id : NodeId} {root : Node}
    (ends : EndsAt g steps id root) {stack : List NodeId} (behind : Behind g steps stack) :
    id ∉ stack := by
  intro entered
  obtain ⟨further, last, lt, other⟩ := behind id entered
  exact lt.ne (ends.unique other).1

theorem Behind.cons {g : Graph} {steps : Nat} {stack : List NodeId}
    (behind : Behind g (steps + 1) stack) {id : NodeId} {root : Node}
    (ends : EndsAt g (steps + 1) id root) : Behind g steps (id :: stack) := by
  refine List.forall_mem_cons.mpr ⟨⟨_, root, Nat.lt_succ_self steps, ends⟩, fun other member => ?_⟩
  obtain ⟨further, last, lt, ends⟩ := behind other member
  exact ⟨further, last, Nat.lt_of_succ_lt lt, ends⟩

theorem exists_next_of_endless {g : Graph} {id : NodeId} {node : Node}
    (found : g.nodes[id]? = some node) (endless : ∀ steps root, ¬ EndsAt g steps id root) :
    ∃ base arguments, manner node = .inPlace (.node base arguments) ∧
      ∀ steps root, ¬ EndsAt g steps (g.resolve base) root := by
  by_contra own
  refine endless 0 node (.own found fun base arguments next => own ⟨base, arguments, next, ?_⟩)
  exact fun steps root rest => endless (steps + 1) root (.step found next rest)

theorem nodeType_of_endless {n : Naming} {id : NodeId}
    (endless : ∀ steps root, ¬ EndsAt n.graph steps (n.graph.resolve id) root) (level : Nat)
    (stack : List NodeId) (bound : Bindings) (given : List TypeRef) :
    nodeType n level stack bound id given = .object := by
  induction level generalizing id stack bound given with
  | zero =>
    rw [nodeType]
    cases found : n.graph.node? id with
    | none => exact nodeTypeWith_of_none found _ _ _
    | some node =>
      obtain ⟨base, arguments, next, -⟩ := exists_next_of_endless found endless
      rw [nodeTypeWith_manner found, next]
      rfl
  | succ level ih =>
    rw [nodeType]
    cases found : n.graph.node? id with
    | none => exact nodeTypeWith_of_none found _ _ _
    | some node =>
      obtain ⟨base, arguments, next, further⟩ := exists_next_of_endless found endless
      rw [nodeTypeWith_manner found, next, Manner.type]
      split_ifs
      · rfl
      · exact ih further _ _ _

theorem isClass_of_lowerDeclaration {n : Naming} {settings : Settings} {name : String} {node : Node}
    {decl : Declaration} (lowered : lowerDeclaration n settings name node = some decl) :
    decl.isClass = isClassShape node.shape := by
  rw [lowerDeclaration] at lowered
  cases shape : node.shape <;> rw [shape] at lowered <;> cases lowered <;> rfl

section root
variable {g : Graph} (complete : g.Complete) {settings : Settings}

theorem baseForm_of_declared {id : NodeId} {root : Node} (kept : Kept g id)
    (found : g.node? id = some root) (declared : root.isDeclared = true) (level : Nat)
    (stack : List NodeId) (bound : Bindings) (given : List TypeRef) :
    BaseForm (lowerFile g settings) (isClassShape root.shape)
      (nodeType (Naming.of g settings) level stack bound id given) := by
  obtain ⟨node, retained⟩ := kept
  obtain rfl := Option.some.inj (found.symm.trans (Graph.mem_retainedNodes.mp retained).1.2)
  have listed := mem_declaredNodes.mpr ⟨retained, declared⟩
  obtain ⟨name, named⟩ := Naming.exists_name settings listed
  obtain ⟨decl, inside, lowered, rfl, isArity, -⟩ := lowerFile_declaration listed named
  obtain ⟨arguments, isNamed, length⟩ :=
    nodeType_declared (n := Naming.of g settings) found declared named level stack bound given
  rw [isNamed, ← isClass_of_lowerDeclaration lowered]
  exact .declared inside (length.trans isArity.symm)

include complete

theorem baseForm_of_own {id : NodeId} {root : Node} (kept : Kept g id)
    (found : g.node? id = some root)
    (own : ∀ base arguments, manner root ≠ .inPlace (.node base arguments)) {s s' : Frame}
    (outside : g.resolve id ∉ s.stack) {arguments : List TypeUse} {type : TypeRef}
    (written : WritesNode (Naming.of g settings) s id arguments type s') :
    BaseForm (lowerFile g settings) (isClassShape root.shape) type := by
  by_cases declared : root.isDeclared = true
  · obtain ⟨rfl, -⟩ := ((s.writesAs _).node s.bound id arguments type s').mp written
    exact baseForm_of_declared kept found declared _ _ _ _
  have fits := manner_fits root
  have filled : root.shape ≠ .constants [] := by
    obtain ⟨node, retained⟩ := kept
    obtain rfl := Option.some.inj (found.symm.trans (Graph.mem_retainedNodes.mp retained).1.2)
    exact complete.filled _ root retained
  cases written with
  | missing missing => cases found.symm.trans missing
  | keyword found' isManner =>
    obtain rfl := Option.some.inj (found.symm.trans found')
    rw [isManner, Manner.Fits] at fits
    rw [fits]
    exact .keyword _
  | array found' isManner filledIn guarded =>
    obtain rfl := Option.some.inj (found.symm.trans found')
    obtain ⟨-, rfl⟩ := (writesArguments_returns_writer _ _ _ _ _ _ _).mp filledIn
    rw [isManner, Manner.Fits] at fits
    rw [fits]
    cases guarded with
    | again entered => exact absurd entered outside
    | enter _ written =>
      cases written
      exact .array _
  | inPlace found' isManner guarded =>
    obtain rfl := Option.some.inj (found.symm.trans found')
    rw [isManner] at fits
    cases guarded with
    | again entered => exact absurd entered outside
    | enter _ written =>
      cases written with
      | array | default => cases fits
      | node => exact absurd isManner (own _ _)
      | dictionary =>
        rw [Manner.Fits] at fits
        rw [fits]
        exact .library (.inl rfl) _
      | tuple =>
        rw [Manner.Fits] at fits
        rw [fits]
        exact .library (.inr rfl) _
  | unnamed found' isManner | named found' isManner =>
    obtain rfl := Option.some.inj (found.symm.trans found')
    rw [isManner] at fits
    exact absurd fits (not_or.mpr ⟨declared, filled⟩)

/-- Each node on the way is further from the end than the next, so none is entered twice. -/
theorem baseForm_of_endsAt {id : NodeId} (kept : Kept g id) {steps : Nat} {root : Node}
    (ends : EndsAt g steps (g.resolve id) root) {s s' : Frame} (behind : Behind g steps s.stack)
    {arguments : List TypeUse} {type : TypeRef}
    (written : WritesNode (Naming.of g settings) s id arguments type s') :
    BaseForm (lowerFile g settings) (isClassShape root.shape) type := by
  generalize place : g.resolve id = here at ends
  induction ends generalizing id s s' arguments type with
  | own found own =>
    subst place
    exact baseForm_of_own complete kept found own ((EndsAt.own found own).not_mem_of_behind behind)
      written
  | @step here base node root own steps found next rest ih =>
    subst place
    have ends := EndsAt.step found next rest
    obtain ⟨other, retained⟩ := kept
    obtain rfl := Option.some.inj (found.symm.trans (Graph.mem_retainedNodes.mp retained).1.2)
    have reached : Kept g base := complete.refers _ node retained base
      ((Shape.mem_outgoing _ _).mpr (.inl (base?_of_manner next)))
    cases written with
    | inPlace found' isManner guarded =>
      obtain rfl := Option.some.inj (found.symm.trans found')
      cases next.symm.trans isManner
      cases guarded with
      | again entered => exact absurd entered (ends.not_mem_of_behind behind)
      | enter _ written =>
        cases written with
        | node written => exact ih reached (behind.cons ends) written rfl
    | missing missing => cases Eq.trans (Eq.symm found) missing
    | keyword found' isManner | array found' isManner | unnamed found' isManner
    | named found' isManner =>
      obtain rfl := Option.some.inj (found.symm.trans found')
      cases next.symm.trans isManner

end root

/-- The node that the base of a class is written for: a dictionary or a tuple itself, and for an
instantiation the node at the end of its base. -/
inductive DerivesFrom (g : Graph) (node : Node) : Node → Prop
  | dictionary {key : IndexKey} {value : TypeUse} {generics : List Graph.Parameter}
      (shape : node.shape = .dictionary key value generics) : DerivesFrom g node node
  | tuple {elements : List TypeUse} {generics : List Graph.Parameter}
      (shape : node.shape = .tuple elements generics) : DerivesFrom g node node
  | instantiation {base : NodeId} {arguments : List TypeUse} {generics : List Graph.Parameter}
      {steps : Nat} {root : Node} (shape : node.shape = .instantiation base arguments generics)
      (ends : EndsAt g steps (g.resolve base) root) : DerivesFrom g node root

theorem DerivesFrom.unique {g : Graph} {node root root' : Node} (derives : DerivesFrom g node root)
    (derives' : DerivesFrom g node root') : root = root' := by
  cases derives with
  | dictionary shape =>
    cases derives' with
    | dictionary | tuple => rfl
    | instantiation shape' => cases shape.symm.trans shape'
  | tuple shape =>
    cases derives' with
    | dictionary | tuple => rfl
    | instantiation shape' => cases shape.symm.trans shape'
  | instantiation shape ends =>
    cases derives' with
    | dictionary shape' | tuple shape' => cases shape.symm.trans shape'
    | instantiation shape' ends' =>
      cases shape.symm.trans shape'
      exact (ends.unique ends').2

theorem exists_baseForm {g : Graph} (complete : g.Complete) {settings : Settings} {id : NodeId}
    {node : Node} (retained : (id, node) ∈ g.retainedNodes) {name : String} {c : Class}
    (lowered : lowerDeclaration (Naming.of g settings) settings name node = some (.record c))
    {b : TypeRef} (isBase : c.base = some b) :
    (∃ root, DerivesFrom g node root ∧
      BaseForm (lowerFile g settings) (isClassShape root.shape) b) ∨
    (∀ root, ¬ DerivesFrom g node root) ∧ b = .object := by
  rw [lowerDeclaration] at lowered
  cases shape : node.shape with
  | record _ _ =>
    rw [shape] at lowered
    cases lowered
    cases isBase
  | dictionary _ _ _ =>
    rw [shape] at lowered
    cases lowered
    cases isBase
    refine .inl ⟨node, .dictionary shape, ?_⟩
    rw [shape]
    exact .library (.inl rfl) _
  | tuple _ _ =>
    rw [shape] at lowered
    cases lowered
    cases isBase
    refine .inl ⟨node, .tuple shape, ?_⟩
    rw [shape]
    exact .library (.inr rfl) _
  | instantiation base arguments _ =>
    rw [shape] at lowered
    cases lowered
    cases isBase
    have kept : Kept g base := complete.refers id node retained base
      ((Shape.mem_outgoing _ _).mpr (.inl (by rw [shape]; rfl)))
    by_cases ends : ∃ steps root, EndsAt g steps (g.resolve base) root
    · obtain ⟨steps, root, ends⟩ := ends
      have written := (Frame.writesAs ⟨[], []⟩ (Naming.of g settings)).node [] base arguments
      have behind : Behind g steps [] := List.forall_mem_nil _
      exact .inl ⟨root, .instantiation shape ends,
        baseForm_of_endsAt (s := ⟨[], []⟩) complete kept ends behind written.holds⟩
    · simp only [not_exists] at ends
      refine .inr ⟨fun root derives => ?_, nodeType_of_endless ends _ _ _ _⟩
      cases derives with
      | dictionary shape' | tuple shape' => cases shape.symm.trans shape'
      | instantiation shape' reaches =>
        cases shape.symm.trans shape'
        exact ends _ _ reaches
  | _ =>
    rw [shape] at lowered
    cases lowered

end Code

namespace Conversion
open TypeLoom.Code TypeLoom.Graph

/-- A class of a converted file can inherit from its base if and only if this is written for a node
that is a class, and nothing hides its name. -/
theorem buildWith_inheritable_iff {hash : Hash} {settings : Settings} {facts : List Fact}
    {g : Graph} (built : buildWith hash settings facts = .ok g) {c : Code.Class}
    (inside : .record c ∈ (lowerFile g settings).declarations) {b : TypeRef}
    (isBase : c.base = some b) :
    ∃ id node, (id, node) ∈ declaredNodes g ∧
      (Naming.of g settings).names.get? id = some c.name ∧
      (Inheritable (lowerFile g settings) c b ↔
        (∃ root, DerivesFrom g node root ∧ isClassShape root.shape = true) ∧
          ¬ Hidden (lowerFile g settings) c b) := by
  obtain ⟨id, node, name, declared, found, lowered⟩ := mem_lowerFile.mp inside
  obtain ⟨retained, isDeclared⟩ := mem_declaredNodes.mp declared
  obtain ⟨other, same, rfl, -⟩ :=
    lowerDeclaration_of_declared (Naming.of g settings) settings name isDeclared
  obtain rfl := Option.some.inj (lowered.symm.trans same)
  refine ⟨id, node, declared, found, ?_⟩
  rcases exists_baseForm (buildWith_complete built) retained lowered isBase with
    ⟨root, derives, form⟩ | ⟨none, rfl⟩
  · rw [form.inheritable_iff (lowerFile_regular g settings) c]
    refine and_congr_left fun _ => ⟨fun isClass => ⟨root, derives, isClass⟩, ?_⟩
    rintro ⟨root', derives', isClass⟩
    rwa [derives.unique derives']
  · refine iff_of_false (not_inheritable_primitiveType _ c .object) ?_
    rintro ⟨⟨root, derives, -⟩, -⟩
    exact none root derives

/-- Whether there is an instantiation with a name of a node of certain shapes. -/
def instantiates (wanted : Shape → Bool) (g : Graph) : Bool :=
  g.retainedNodes.any fun entry => entry.2.isDeclared &&
    match entry.2.shape with
    | .instantiation base _ _ => (g.node? base).any fun node => wanted node.shape
    | _ => false

theorem exists_class_of_instantiates {wanted : Shape → Bool} {g : Graph}
    (known : instantiates wanted g = true) (settings : Settings) :
    ∃ c base arguments node, .record c ∈ (lowerFile g settings).declarations ∧
      c.base = some ((Naming.of g settings).writer [] base
        ((Naming.of g settings).writer.uses [] arguments)) ∧
      g.node? base = some node ∧ wanted node.shape = true := by
  obtain ⟨entry, retained, both⟩ := List.any_eq_true.mp known
  obtain ⟨declared, isWanted⟩ := Bool.and_eq_true_iff.mp both
  obtain ⟨id, node⟩ := entry
  have listed := mem_declaredNodes.mpr ⟨retained, declared⟩
  obtain ⟨name, named⟩ := Naming.exists_name settings listed
  obtain ⟨decl, inside, lowered, -⟩ := lowerFile_declaration listed named
  dsimp only at isWanted
  rw [lowerDeclaration] at lowered
  cases shape : node.shape with
  | instantiation base arguments generics =>
    rw [shape] at isWanted lowered
    obtain ⟨target, found, fits⟩ := (Option.any_eq_true _ _).mp isWanted
    cases lowered
    exact ⟨_, base, arguments, target, inside, rfl, found, fits⟩
  | _ =>
    rw [shape] at isWanted
    cases isWanted

/-- A generic record and another one that is an instantiation of it. -/
def crates : List Fact := [
  { Fact.ofType "Box" (.object [{ name := "content", type := .parameter "T" }] []) with
    typeParameters := [{ name := "T" }] },
  { Fact.ofType "Crate" (.reference "Box" none [.parameter "T"]) with
    typeParameters := [{ name := "T" }], isPublic := true }]

theorem buildWith_inheritable_iff_crates : ∃ g c b, buildWith checksum {} crates = .ok g ∧
    .record c ∈ (lowerFile g {}).declarations ∧ c.base = some b ∧
    ∃ id node, (id, node) ∈ declaredNodes g ∧ (Naming.of g {}).names.get? id = some c.name ∧
      (Inheritable (lowerFile g {}) c b ↔
        (∃ root, DerivesFrom g node root ∧ isClassShape root.shape = true) ∧
          ¬ Hidden (lowerFile g {}) c b) := by
  have known : (buildWith checksum {} crates).map (instantiates Shape.isRecord) = .ok true := by
    decide +kernel
  cases built : buildWith checksum {} crates with
  | error cause =>
    rw [built] at known
    cases known
  | ok g =>
    rw [built] at known
    obtain ⟨c, base, arguments, -, inside, isBase, -⟩ :=
      exists_class_of_instantiates (Except.ok.inj known) {}
    exact ⟨g, c, _, rfl, inside, isBase, buildWith_inheritable_iff built inside isBase⟩

/-- An array with a name and an instantiation of it. -/
def rows : List Fact := [
  { Fact.ofType "List" (.array (.parameter "T")) with typeParameters := [{ name := "T" }] },
  { Fact.ofType "Row" (.reference "List" none [.parameter "T"]) with
    typeParameters := [{ name := "T" }], isPublic := true }]

theorem buildWith_rows_derives_array : ∃ g c element, buildWith checksum {} rows = .ok g ∧
    .record c ∈ (lowerFile g {}).declarations ∧ c.base = some (.array element) ∧
    ¬ Inheritable (lowerFile g {}) c (.array element) := by
  have known : (buildWith checksum {} rows).map (instantiates (·.label == "array")) = .ok true := by
    decide +kernel
  cases built : buildWith checksum {} rows with
  | error cause =>
    rw [built] at known
    cases known
  | ok g =>
    rw [built] at known
    obtain ⟨c, base, arguments, node, inside, isBase, found, isArray⟩ :=
      exists_class_of_instantiates (Except.ok.inj known) {}
    cases shape : node.shape with
    | array element generics =>
      have written := congrFun (writerIn_of_outside (n := Naming.of g {}) (.nil g) found
        List.not_mem_nil []) ((Naming.of g {}).writer.uses [] arguments)
      rw [nodeTypeWith_array found shape] at written
      exact ⟨g, c, _, rfl, inside, isBase.trans (congrArg some written), id⟩
    | _ => simp [shape, Shape.label] at isArray

end Conversion

end TypeLoom
