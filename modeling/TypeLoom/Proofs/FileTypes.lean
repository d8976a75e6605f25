import TypeLoom.Proofs.TypeParts
import TypeLoom.Proofs.WritingStates

/-! The types that stand in a file. Those of a declaration are written for the uses in its node,
each by itself and in order, and every name in them is a keyword, a type parameter or the name of a
declaration of the same file, with an argument for each of its type parameters. -/
namespace TypeLoom

namespace Code
open TypeLoom.Graph (Node Shape)

/-- The types of bases, members and constructor parameters. -/
def Declaration.types : Declaration → List TypeRef
  | .record c => c.base.toList ++ (c.properties.map (·.type) ++
      (c.constructor.getD []).map (·.type))
  | .constants c => c.fields.map (·.type)
  | .enumeration _ | .union _ => []

/-- The values of properties and constants. -/
def Declaration.values : Declaration → List Expr
  | .record c => c.properties.filterMap (·.initializer)
  | .constants c => c.fields.map (·.value)
  | .enumeration _ | .union _ => []

mutual

/-- The element types of the arrays in a value. -/
def Expr.types : Expr → List TypeRef
  | .array element items => element :: Expr.typesOfAll items
  | .null | .default | .bool _ | .number _ | .text _ => []

def Expr.typesOfAll : List Expr → List TypeRef
  | [] => []
  | item :: rest => item.types ++ Expr.typesOfAll rest

end

/-- A use is written as this type, outside of any node and with nothing bound. -/
def WrittenAs (n : Naming) (u : TypeUse) (type : TypeRef) : Prop :=
  WritesUse n ⟨[], []⟩ u type ⟨[], []⟩

theorem writtenAs_iff {n : Naming} {u : TypeUse} {type : TypeRef} :
    WrittenAs n u type ↔ type = n.use u :=
  (Frame.writesAs ⟨[], []⟩ n [] u type _).trans (and_iff_left rfl)

theorem forall₂_writtenAs_iff {n : Naming} {uses : List TypeUse} {types : List TypeRef} :
    List.Forall₂ (WrittenAs n) uses types ↔ types = uses.map n.use := by
  induction uses generalizing types with
  | nil => rw [List.forall₂_nil_left_iff, List.map_nil]
  | cons u rest ih => simp [List.forall₂_cons_left_iff, writtenAs_iff, ih]

/-- The types of a declaration, by the shape of its node. -/
inductive StandFor (n : Naming) : Shape → List TypeRef → Prop
  | record {properties : List Graph.Property} {generics : List Graph.Parameter}
      {types : List TypeRef}
      (each : List.Forall₂ (WrittenAs n) (properties.map (·.type)) types) :
      StandFor n (.record properties generics) types
  | constants {items : List Graph.Constant} {types : List TypeRef}
      (each : List.Forall₂ (WrittenAs n) (items.map (·.type)) types) :
      StandFor n (.constants items) types
  | dictionary {key : IndexKey} {value : TypeUse} {generics : List Graph.Parameter} {type : TypeRef}
      (written : WrittenAs n value type) :
      StandFor n (.dictionary key value generics) [.named "Dictionary" [keyType key, type]]
  /-- Once for the base and once for the constructor. -/
  | tuple {elements : List TypeUse} {generics : List Graph.Parameter} {types : List TypeRef}
      (each : List.Forall₂ (WrittenAs n) elements types) :
      StandFor n (.tuple elements generics) (.named "Tuple" types :: types)
  | instantiation {base : NodeId} {arguments : List TypeUse} {generics : List Graph.Parameter}
      {type : TypeRef} (written : WrittenAs n ⟨.node base, 0, arguments⟩ type) :
      StandFor n (.instantiation base arguments generics) [type]
  | stringUnion {members : List Graph.Member} : StandFor n (.stringUnion members) []
  | classUnion {arity : Nat} : StandFor n (.classUnion arity) []

theorem map_zip_uniqueNames {α β : Type} (base : α → String) (items : List α) (f : α → β) :
    ((uniqueNames [] (items.map base)).zip items).map (fun entry => f entry.2) = items.map f := by
  have all : ((uniqueNames [] (items.map base)).zip items).map Prod.snd = items :=
    List.map_snd_zip (by rw [uniqueNames_length, List.length_map])
  conv_rhs => rw [← all, List.map_map]
  rfl

theorem lowerRecord_types (n : Naming) (settings : Settings) (name : String) (node : Node)
    (properties : List Graph.Property) :
    (Declaration.record (lowerRecord n settings name node properties)).types =
      (properties.map (·.type)).map n.use := by
  rw [List.map_map, ← map_zip_uniqueNames fun p => memberName settings name p.name]
  simp [Declaration.types, lowerRecord, lowerProperty, Function.comp_def]

theorem lowerConstants_types (n : Naming) (settings : Settings) (name : String)
    (items : List Graph.Constant) :
    (Declaration.constants (lowerConstants n settings name items)).types =
      (items.map (·.type)).map n.use := by
  rw [List.map_map, ← map_zip_uniqueNames fun c => memberName settings name c.name]
  simp [Declaration.types, lowerConstants, lowerConstant, Function.comp_def]

theorem lowerDeclaration_standFor {n : Naming} {settings : Settings} {name : String} {node : Node}
    {decl : Declaration} (lowered : lowerDeclaration n settings name node = some decl) :
    StandFor n node.shape decl.types := by
  rw [lowerDeclaration] at lowered
  cases shape : node.shape <;> rw [shape] at lowered <;> cases lowered
  case record properties generics =>
    exact .record (forall₂_writtenAs_iff.mpr (lowerRecord_types n settings name node properties))
  case constants items =>
    exact .constants (forall₂_writtenAs_iff.mpr (lowerConstants_types n settings name items))
  case dictionary key value generics => exact .dictionary (writtenAs_iff.mpr rfl)
  case instantiation base arguments generics => exact .instantiation (writtenAs_iff.mpr rfl)
  case tuple elements generics =>
    have items : n.writer.uses [] elements = elements.map n.use := typeUses_eq_map _ _ _
    have stand : StandFor n (.tuple elements generics) _ := .tuple (forall₂_writtenAs_iff.mpr rfl)
    simpa [Declaration.types, derivedClass, itemParameters, items, Function.comp_def] using stand
  case stringUnion members => exact .stringUnion
  case classUnion arity => exact .classUnion

theorem lowerDeclaration_values {n : Naming} {settings : Settings} {name : String} {node : Node}
    {decl : Declaration} (lowered : lowerDeclaration n settings name node = some decl) :
    ∀ value ∈ decl.values, ∃ u ∈ node.shape.ownUses, ∃ inConstant literal,
      value = valueExpr inConstant (n.use u) literal := by
  rw [lowerDeclaration] at lowered
  cases shape : node.shape <;> rw [shape] at lowered <;> cases lowered
  case record properties generics =>
    intro value member
    obtain ⟨p, inside, made⟩ := List.mem_filterMap.mp member
    obtain ⟨entry, listed, rfl⟩ := List.mem_map.mp inside
    obtain ⟨literal, -, rfl⟩ := Option.map_eq_some_iff.mp made
    exact ⟨entry.2.type, List.mem_map_of_mem (List.of_mem_zip listed).2, false, literal, rfl⟩
  case constants items =>
    intro value member
    obtain ⟨field, inside, rfl⟩ := List.mem_map.mp member
    obtain ⟨entry, listed, rfl⟩ := List.mem_map.mp inside
    exact ⟨entry.2.type, List.mem_map_of_mem (List.of_mem_zip listed).2, true, entry.2.value, rfl⟩
  all_goals simp [Declaration.values, derivedClass]

/-- A type whose names are keywords, type parameters that are in use, or declared in the file, with
as many arguments as the declaration has type parameters. -/
inductive TypeRef.ClosedIn (g : Graph) (file : File) : TypeRef → Prop
  | keyword {name : String} (listed : name ∈ ["string", "double", "bool", "object"]) :
      ClosedIn g file (.plain name)
  | parameter {u : TypeUse} {name : String} (written : Written g u)
      (target : u.target = .generic name) : ClosedIn g file (.plain (identifier name))
  | array {element : TypeRef} (inner : ClosedIn g file element) : ClosedIn g file (.array element)
  | dictionary {key value : TypeRef} (first : ClosedIn g file key)
      (second : ClosedIn g file value) : ClosedIn g file (.named "Dictionary" [key, value])
  | tuple {types : List TypeRef} (all : ∀ type ∈ types, ClosedIn g file type) :
      ClosedIn g file (.named "Tuple" types)
  | declared {decl : Declaration} {types : List TypeRef} (inside : decl ∈ file.declarations)
      (length : types.length = decl.arity) (all : ∀ type ∈ types, ClosedIn g file type) :
      ClosedIn g file (.named decl.name types)

section closed
variable {g : Graph} {settings : Settings}

theorem Naming.declared_of_name {id : NodeId} {name : String}
    (found : (Naming.of g settings).names.get? id = some name) :
    ∃ node, (id, node) ∈ declaredNodes g := by
  have listed := Table.mem_entries_of_get? found
  rw [Naming.of_entries] at listed
  obtain ⟨entry, declared, rfl⟩ := List.mem_map.mp (List.of_mem_zip listed).1
  exact ⟨entry.2, declared⟩

theorem closedIn_compositional (g : Graph) (settings : Settings) :
    Compositional (Naming.of g settings) (Written g)
      (TypeRef.ClosedIn g (lowerFile g settings)) where
  argument := .argument
  inside := .target
  parameter := .parameter
  keyword kind := by cases kind <;> exact .keyword (by decide)
  array := .array
  dictionary key {_} known := by
    refine .dictionary ?_ known
    cases key <;> exact .keyword (by decide)
  tuple := .tuple
  declared {_ id node name types} _ _ found isName length all := by
    obtain ⟨other, declared⟩ := Naming.declared_of_name isName
    have kept := Graph.mem_retainedNodes.mp (mem_declaredNodes.mp declared).1
    obtain rfl : other = node := Option.some.inj (kept.1.2.symm.trans found)
    obtain ⟨decl, inside, -, rfl, isArity, -⟩ := lowerFile_declaration declared isName
    exact .declared inside (length.trans isArity.symm) all

theorem Written.closedIn {u : TypeUse} (written : Written g u) :
    ((Naming.of g settings).use u).ClosedIn g (lowerFile g settings) :=
  (closedIn_compositional g settings).use written

theorem StandFor.closedIn {id : NodeId} {node : Node} (declared : (id, node) ∈ declaredNodes g)
    {types : List TypeRef} (stand : StandFor (Naming.of g settings) node.shape types) :
    ∀ type ∈ types, type.ClosedIn g (lowerFile g settings) := by
  have parts := closedIn_compositional g settings
  have written : ∀ u ∈ writtenUses node.shape, Written g u := fun u => .own declared
  generalize node.shape = shape at stand written
  have own : ∀ type ∈ shape.ownUses.map (Naming.of g settings).use,
      type.ClosedIn g (lowerFile g settings) :=
    List.forall_mem_map.mpr fun u member =>
      (written u (List.mem_append_left _ (List.mem_append_right _ member))).closedIn
  cases stand with
  | record each | constants each =>
    rw [forall₂_writtenAs_iff.mp each]
    exact own
  | dictionary value =>
    rw [writtenAs_iff.mp value, List.forall_mem_singleton]
    exact parts.dictionary _ (own _ (List.mem_singleton_self _))
  | tuple each =>
    rw [forall₂_writtenAs_iff.mp each, List.forall_mem_cons]
    exact ⟨parts.tuple own, own⟩
  | instantiation base =>
    rw [writtenAs_iff.mp base, List.forall_mem_singleton]
    exact (written _ (List.mem_append_right _ (List.mem_singleton_self _))).closedIn
  | stringUnion | classUnion => simp

end closed

theorem TypeRef.ClosedIn.element {g : Graph} {file : File} {type : TypeRef}
    (closed : type.ClosedIn g file) : type.element.ClosedIn g file := by
  cases closed with
  | array inner => exact inner
  | _ => exact .keyword (by decide)

mutual

theorem valueExpr_closedIn {g : Graph} {file : File} (inConstant : Bool) {type : TypeRef}
    (closed : type.ClosedIn g file) : (value : Literal.Value) →
      ∀ element ∈ (valueExpr inConstant type value).types, element.ClosedIn g file
  | .null => by cases inConstant <;> simp [valueExpr, Expr.types]
  | .bool _ | .number _ | .text _ => by simp [valueExpr, Expr.types]
  | .array items => by
    rw [valueExpr, Expr.types, List.forall_mem_cons]
    exact ⟨closed.element, valueExprs_closedIn closed.element items⟩

theorem valueExprs_closedIn {g : Graph} {file : File} {type : TypeRef}
    (closed : type.ClosedIn g file) : (items : List Literal.Value) →
      ∀ element ∈ Expr.typesOfAll (valueExprs type items), element.ClosedIn g file
  | [] => by simp [valueExprs, Expr.typesOfAll]
  | item :: rest => by
    rw [valueExprs, Expr.typesOfAll, List.forall_mem_append]
    exact ⟨valueExpr_closedIn true closed item, valueExprs_closedIn closed rest⟩

end

/-- The types of a declaration stand for the uses of its node, and with those of its values they are
closed in the file. -/
structure Declaration.ClosedIn (g : Graph) (settings : Settings) (decl : Declaration) : Prop where
  stand : ∃ id node, (id, node) ∈ declaredNodes g ∧
    lowerDeclaration (Naming.of g settings) settings decl.name node = some decl ∧
    StandFor (Naming.of g settings) node.shape decl.types
  types : ∀ type ∈ decl.types, type.ClosedIn g (lowerFile g settings)
  values : ∀ value ∈ decl.values, ∀ type ∈ value.types, type.ClosedIn g (lowerFile g settings)

theorem lowerFile_closedIn (g : Graph) (settings : Settings) :
    ∀ decl ∈ (lowerFile g settings).declarations, decl.ClosedIn g settings := by
  intro decl inside
  obtain ⟨id, node, name, declared, -, lowered⟩ := mem_lowerFile.mp inside
  obtain ⟨other, same, rfl, -⟩ := lowerDeclaration_of_declared (Naming.of g settings) settings name
    (mem_declaredNodes.mp declared).2
  obtain rfl := Option.some.inj (lowered.symm.trans same)
  have stand := lowerDeclaration_standFor lowered
  refine ⟨⟨id, node, declared, lowered, stand⟩, stand.closedIn declared, fun value member => ?_⟩
  obtain ⟨u, own, inConstant, literal, rfl⟩ := lowerDeclaration_values lowered value member
  have written : Written g u :=
    .own declared (List.mem_append_left _ (List.mem_append_right _ own))
  exact valueExpr_closedIn inConstant written.closedIn literal

end Code

namespace Conversion
open TypeLoom.Code

/-- The file of a conversion is closed under references: the types in it stand for the uses of
declared nodes and name nothing but keywords, type parameters and declarations of the file. A
declared node is used by the name of its declaration, with as many arguments as this has type
parameters, and no node is written as `object` for want of a name, as names for further nodes make
no difference. -/
theorem buildWith_closed {hash : Graph.Hash} {settings : Settings} {facts : List Fact} {g : Graph}
    (built : buildWith hash settings facts = .ok g) :
    (∀ decl ∈ (lowerFile g settings).declarations, decl.ClosedIn g settings) ∧
    (∀ u id node, Written g u → u.target = .node id → g.node? id = some node →
      node.isDeclared = true → NamesDeclaration g settings u node) ∧
    ∀ names : Table NodeId String,
      (∀ id name, (Naming.of g settings).names.get? id = some name → names.get? id = some name) →
      ∀ id node name, (id, node) ∈ declaredNodes g →
        lowerDeclaration ⟨g, names⟩ settings name node =
          lowerDeclaration (Naming.of g settings) settings name node := by
  have complete := buildWith_complete built
  refine ⟨lowerFile_closedIn g settings, ?_, ?_⟩
  · intro u id node written target found declared
    exact written.namesDeclaration complete settings target found declared
  · intro names wider id node name declared
    exact lowerDeclaration_eq complete wider name (mem_declaredNodes.mp declared).1

/-- A record that uses another one without an argument for its type parameter. -/
def shelf : List Fact := [
  { Fact.ofType "Box" (.object [{ name := "content", type := .parameter "T" }] []) with
    typeParameters := [{ name := "T", default := some (.primitive .string) }] },
  { Fact.ofType "Shelf" (.object [{ name := "box", type := .named "Box" }] []) with
    isPublic := true }]

/-- A type in the file of the shelf is the name of another declaration, with one argument. -/
theorem buildWith_closed_shelf : ∃ g, buildWith checksum {} shelf = .ok g ∧
    (∃ decl ∈ (lowerFile g {}).declarations, decl.ClosedIn g {} ∧
      ∃ other ∈ (lowerFile g {}).declarations, other.arity = 1 ∧
        ∃ argument, .named other.name [argument] ∈ decl.types) ∧
    (∃ u id node, (Written g u ∧ u.target = .node id ∧ g.node? id = some node ∧
      node.isDeclared = true) ∧ NamesDeclaration g {} u node) ∧
    ∀ names : Table NodeId String,
      (∀ id name, (Naming.of g {}).names.get? id = some name → names.get? id = some name) →
      ∀ id node name, (id, node) ∈ declaredNodes g →
        lowerDeclaration ⟨g, names⟩ {} name node =
          lowerDeclaration (Naming.of g {}) {} name node := by
  have used : (buildWith checksum {} shelf).map (fun g => g.retainedNodes.any fun entry =>
      (entry.2.isDeclared && entry.2.shape.declarationKind? == some .record) &&
        entry.2.shape.ownUses.any fun u => u.arrayDepth == 0 &&
          (u.nodeId?.bind g.node?).any fun node => node.isDeclared && arity node.shape == 1) =
      .ok true := by
    decide +kernel
  cases built : buildWith checksum {} shelf with
  | error cause =>
    rw [built] at used
    cases used
  | ok g =>
    rw [built] at used
    obtain ⟨entry, kept, uses⟩ := List.any_eq_true.mp (Except.ok.inj used)
    simp only [Bool.and_eq_true, beq_iff_eq] at uses
    obtain ⟨⟨own, isRecord⟩, some⟩ := uses
    obtain ⟨u, inside, ofDeclared⟩ := List.any_eq_true.mp some
    rw [Bool.and_eq_true, beq_iff_eq] at ofDeclared
    obtain ⟨node, isNode, single⟩ := (Option.any_eq_true _ _).mp ofDeclared.2
    rw [Bool.and_eq_true, beq_iff_eq] at single
    obtain ⟨id, isTarget, found⟩ := Option.bind_eq_some_iff.mp isNode
    have target : u.target = .node id := by
      rw [TypeUse.nodeId?] at isTarget
      split at isTarget
      · next other isNode => rw [isNode, Option.some.inj isTarget]
      · cases isTarget
    have listed : entry ∈ declaredNodes g := mem_declaredNodes.mpr ⟨kept, own⟩
    have written : Written g u :=
      .own listed (List.mem_append_left _ (List.mem_append_right _ inside))
    obtain ⟨closed, names, unnamed⟩ := buildWith_closed built
    have named := names u id node written target found single.1
    refine ⟨g, rfl, ?_, ⟨u, id, node, ⟨written, target, found, single.1⟩, named⟩, unnamed⟩
    obtain ⟨other, there, lowered, -, writes⟩ := named
    obtain ⟨same, isOther, -, isArity⟩ :=
      lowerDeclaration_of_declared (Naming.of g {}) {} other.name single.1
    obtain rfl := Option.some.inj (lowered.symm.trans isOther)
    obtain ⟨arguments, isType, length⟩ := writes g.nodes.size [] []
    rw [ofDeclared.1] at isType
    rw [isArity, single.2] at length
    obtain ⟨argument, rfl⟩ := List.length_eq_one_iff.mp length
    obtain ⟨name, isName⟩ := Naming.exists_name {} listed
    obtain ⟨decl, here, isDecl, -⟩ := lowerFile_declaration listed isName
    refine ⟨decl, here, closed decl here, other, there, isArity.trans single.2, argument, ?_⟩
    have stand := lowerDeclaration_standFor isDecl
    -- Of the shapes only that of a record is declared as one.
    cases shape : entry.2.shape <;> rw [shape] at stand isRecord inside <;>
      simp [Graph.Shape.declarationKind?] at isRecord
    cases stand with
    | record each =>
      rw [forall₂_writtenAs_iff.mp each]
      exact List.mem_map.mpr ⟨u, inside, isType⟩

end Conversion

end TypeLoom
