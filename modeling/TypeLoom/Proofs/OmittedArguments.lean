import Mathlib.Logic.Function.Basic
import Mathlib.Logic.Relation
import TypeLoom.Code.Print
import TypeLoom.Proofs.FileClosure
import TypeLoom.Proofs.Reachability

/-! Type arguments that a reference leaves out. The default of a parameter is written with what is
bound where the reference stands, not with the arguments of the reference. What comes out depends on
the values of certain parameters only, and shows each of these values; so it is the default for the
arguments given if and only if the two bindings agree at these parameters. -/
namespace TypeLoom.Code
open Relation
open TypeLoom.Graph (Node Shape)

/-- Bindings that differ at the parameter only can make a difference. -/
def DependsOn {α : Type} (write : Bindings → α) (name : String) : Prop :=
  ∃ bound bound' : Bindings, (∀ other, other ≠ name → bound.value other = bound'.value other) ∧
    write bound ≠ write bound'

/-- Of the bindings the values of certain parameters are to be seen in what is written, and nothing
else. -/
def Determined {α : Type} (write : Bindings → α) : Prop :=
  ∃ shown : String → Prop, ∀ bound bound' : Bindings,
    write bound = write bound' ↔ ∀ name, shown name → bound.value name = bound'.value name

namespace Determined
variable {α β : Type} {write : Bindings → α}

theorem const (a : α) : Determined fun _ => a := ⟨fun _ => False, by simp⟩

theorem value (name : String) : Determined fun bound : Bindings => bound.value name :=
  ⟨(· = name), by simp⟩

theorem comp {f : α → β} (injective : f.Injective) (determined : Determined write) :
    Determined fun bound => f (write bound) := by
  obtain ⟨shown, equal⟩ := determined
  exact ⟨shown, fun bound bound' => injective.eq_iff.trans (equal bound bound')⟩

theorem cons {rest : Bindings → List α} (head : Determined write) (tail : Determined rest) :
    Determined fun bound => write bound :: rest bound := by
  obtain ⟨shown, equal⟩ := head
  obtain ⟨others, equals⟩ := tail
  refine ⟨fun name => shown name ∨ others name, fun bound bound' => ?_⟩
  rw [List.cons.injEq, equal, equals]
  simp only [or_imp, forall_and]

/-- Where bindings are made from others, what depends on the new ones depends on the old ones. -/
theorem bind (determined : Determined write) {own : Bindings → Bindings}
    (inner : ∀ name, Determined fun bound => (own bound).value name) :
    Determined fun bound => write (own bound) := by
  obtain ⟨shown, equal⟩ := determined
  choose deeper equals using inner
  refine ⟨fun name => ∃ parameter, shown parameter ∧ deeper parameter name, fun bound bound' => ?_⟩
  simp only [equal, equals]
  constructor
  · rintro same name ⟨parameter, isShown, isDeeper⟩
    exact same parameter isShown name isDeeper
  · intro same parameter isShown name isDeeper
    exact same name ⟨parameter, isShown, isDeeper⟩

theorem eq_iff (determined : Determined write) (bound bound' : Bindings) :
    write bound = write bound' ↔
      ∀ name, DependsOn write name → bound.value name = bound'.value name := by
  obtain ⟨shown, equal⟩ := determined
  have depends : ∀ name, DependsOn write name ↔ shown name := by
    intro name
    constructor
    · rintro ⟨before, after, same, different⟩
      by_contra hidden
      refine different ((equal before after).mpr fun other isShown => same other ?_)
      rintro rfl
      exact hidden isShown
    · intro isShown
      refine ⟨[(name, .object)], [(name, .array .object)], fun other ne => ?_, fun same => ?_⟩
      · rw [Bindings.value_cons, Bindings.value_cons, if_neg ne, if_neg ne]
      · have atName := (equal _ _).mp same name isShown
        rw [Bindings.value_cons, Bindings.value_cons, if_pos rfl, if_pos rfl] at atName
        cases atName
  rw [equal]
  simp only [depends]

end Determined

/-- A list of so many types, all of them determined. -/
def DeterminedAll (write : Bindings → List TypeRef) : Prop :=
  ∃ parts : List (Bindings → TypeRef), (∀ part ∈ parts, Determined part) ∧
    write = fun bound => parts.map fun part => part bound

namespace DeterminedAll
variable {write : Bindings → List TypeRef}

theorem nil : DeterminedAll fun _ => [] := ⟨[], by simp, rfl⟩

theorem cons {part : Bindings → TypeRef} (head : Determined part) (tail : DeterminedAll write) :
    DeterminedAll fun bound => part bound :: write bound := by
  obtain ⟨parts, all, rfl⟩ := tail
  exact ⟨part :: parts, List.forall_mem_cons.mpr ⟨head, all⟩, rfl⟩

theorem determined (all : DeterminedAll write) : Determined write := by
  obtain ⟨parts, each, rfl⟩ := all
  induction parts with
  | nil => exact .const []
  | cons part rest ih =>
    obtain ⟨head, tail⟩ := List.forall_mem_cons.mp each
    exact .cons head (ih tail)

theorem get (all : DeterminedAll write) (i : Nat) :
    Determined fun bound => ((write bound)[i]?).getD .object := by
  obtain ⟨parts, each, rfl⟩ := all
  cases found : parts[i]? with
  | none => simpa [found] using .const _
  | some part => simpa [found] using each part (List.mem_of_getElem? found)

theorem named (all : DeterminedAll write) (name : String) :
    Determined fun bound => TypeRef.named name (write bound) :=
  all.determined.comp fun _ _ same => (TypeRef.named.inj same).2

end DeterminedAll

/-- Parameters bound to arguments, of equal names the last one in front. -/
def bindingsOf (generics : List Graph.Parameter) (arguments : List TypeRef) : Bindings :=
  ((generics.map Graph.Parameter.name).zip arguments).reverse

theorem DeterminedAll.value {write : Bindings → List TypeRef} (all : DeterminedAll write)
    (generics : List Graph.Parameter) (name : String) :
    Determined fun bound => (bindingsOf generics (write bound)).value name := by
  obtain ⟨parts, each, rfl⟩ := all
  have general : ∀ entries : List (String × (Bindings → TypeRef)),
      (∀ entry ∈ entries, Determined entry.2) →
      Determined fun bound =>
        Bindings.value (entries.map fun entry => (entry.1, entry.2 bound)) name := by
    intro entries
    induction entries with
    | nil => exact fun _ => .const _
    | cons entry rest ih =>
      intro both
      obtain ⟨head, tail⟩ := List.forall_mem_cons.mp both
      simp only [List.map_cons, Bindings.value_cons]
      split_ifs
      · exact head
      · exact ih tail
  have entries := general ((generics.map Graph.Parameter.name).zip parts).reverse
    fun entry member => each _ (List.of_mem_zip (List.mem_reverse.mp member)).2
  simpa [bindingsOf, List.zip_map_right, Prod.map_def] using entries

/-- What a writer makes of determined arguments is determined. -/
def NodeWriter.Determines (writer : NodeWriter) : Prop :=
  ∀ id {given : Bindings → List TypeRef}, DeterminedAll given →
    Determined fun bound => writer bound id (given bound)

theorem TypeRef.arrays_injective (depth : Nat) : Function.Injective (TypeRef.arrays · depth) := by
  intro a b same
  induction depth with
  | zero => exact same
  | succ depth ih => exact ih (TypeRef.array.inj same)

mutual

theorem typeUse_determined {writer : NodeWriter} (determines : writer.Determines) :
    (u : TypeUse) → Determined fun bound => typeUse (writer bound) bound u
  | ⟨.generic name, depth, arguments⟩ => by
    simp only [typeUse]
    exact (Determined.value name).comp (TypeRef.arrays_injective depth)
  | ⟨.node id, depth, arguments⟩ => by
    simp only [typeUse]
    exact (determines id (typeUses_determined determines arguments)).comp
      (TypeRef.arrays_injective depth)

theorem typeUses_determined {writer : NodeWriter} (determines : writer.Determines) :
    (uses : List TypeUse) → DeterminedAll fun bound => typeUses (writer bound) bound uses
  | [] => by
    simp only [typeUses]
    exact .nil
  | u :: rest => by
    simp only [typeUses]
    exact .cons (typeUse_determined determines u) (typeUses_determined determines rest)

end

theorem argumentsFor_determined {default : Bindings → TypeUse → TypeRef}
    (determined : ∀ u, Determined fun bound => default bound u) (generics : List Graph.Parameter)
    {given : Bindings → List TypeRef} (all : DeterminedAll given) :
    DeterminedAll fun bound => argumentsFor (default bound) generics (given bound) := by
  obtain ⟨parts, each, rfl⟩ := all
  induction generics generalizing parts with
  | nil =>
    simp only [argumentsFor]
    exact .nil
  | cons parameter rest ih =>
    cases parts with
    | cons part parts =>
      obtain ⟨head, tail⟩ := List.forall_mem_cons.mp each
      simp only [List.map_cons, argumentsFor]
      exact .cons head (ih parts tail)
    | nil =>
      simp only [List.map_nil, argumentsFor]
      refine .cons ?_ (ih [] each)
      cases parameter.default with
      | none => exact .const _
      | some u => exact determined u

theorem nodeTypeWith_determines {n : Naming}
    {inside : NodeId → (NodeWriter → TypeRef) → TypeRef}
    (determined : ∀ id (body : Bindings → NodeWriter → TypeRef),
      (∀ writer : NodeWriter, writer.Determines → Determined fun bound => body bound writer) →
      Determined fun bound => inside id (body bound)) :
    NodeWriter.Determines (nodeTypeWith n inside) := by
  intro id given all
  unfold nodeTypeWith
  lift_lets
  extract_lets own named
  have default : ∀ u, Determined fun bound => inside own fun writer => writer.use bound u :=
    fun u => determined _ _ fun writer determines => typeUse_determined determines u
  have arguments := fun generics => argumentsFor_determined default generics all
  have named_determined {write : Bindings → List TypeRef} (types : DeterminedAll write) :
      Determined fun bound => named (write bound) := by
    cases isName : n.names.get? own with
    | none => simpa only [named, isName] using .const _
    | some name => simpa only [named, isName] using types.named name
  dsimp only
  cases n.graph.nodes[own]? with
  | none => exact .const _
  | some node =>
    dsimp only
    cases node.shape with
    | primitive kind => exact .const _
    | array element generics =>
      refine determined _ _ fun writer determines => ?_
      exact ((typeUse_determined determines element).comp fun _ _ => TypeRef.array.inj).bind
        ((arguments generics).value generics)
    | classUnionInstance base members =>
      exact determined _ _ fun writer determines =>
        determines base (typeUses_determined determines members)
    | classUnion arity =>
      refine named_determined
        ⟨(List.range arity).map fun i bound => ((given bound)[i]?).getD .object, ?_, ?_⟩
      · exact List.forall_mem_map.mpr fun i _ => all.get i
      · simp [Function.comp_def]
    | dictionary key value generics =>
      cases node.flags.anonymous with
      | true =>
        refine determined _ _ fun writer determines => ?_
        exact (DeterminedAll.cons (.const _)
          (.cons (typeUse_determined determines value) .nil)).named _
      | false => exact named_determined (arguments generics)
    | tuple elements generics =>
      cases node.flags.anonymous with
      | true =>
        exact determined _ _ fun writer determines =>
          (typeUses_determined determines elements).named _
      | false => exact named_determined (arguments generics)
    | instantiation base given generics =>
      cases node.flags.anonymous with
      | true =>
        exact determined _ _ fun writer determines =>
          determines base (typeUses_determined determines given)
      | false => exact named_determined (arguments generics)
    | record properties generics => exact named_determined (arguments generics)
    | stringUnion _ | constants _ => exact named_determined (arguments [])

theorem nodeType_determines (n : Naming) (level : Nat) (stack : List NodeId) :
    (nodeType n level stack).Determines := by
  induction level generalizing stack with
  | zero => exact nodeTypeWith_determines fun _ _ _ => .const _
  | succ level ih =>
    refine nodeTypeWith_determines fun id body inner => ?_
    split_ifs
    · exact .const _
    · exact inner _ (ih (id :: stack))

/-- Nodes that are being written, the innermost first. -/
structure Opened (g : Graph) (stack : List NodeId) : Prop where
  distinct : stack.Nodup
  present : ∀ id ∈ stack, id < g.nodes.size

def Naming.writerIn (n : Naming) (stack : List NodeId) : NodeWriter :=
  nodeType n (n.graph.nodes.size - stack.length) stack

namespace Opened
variable {g : Graph} {stack : List NodeId}

theorem nil (g : Graph) : Opened g [] := ⟨List.nodup_nil, by simp⟩

theorem length_le (opened : Opened g stack) : stack.length ≤ g.nodes.size := by
  have le := opened.distinct.length_le_of_subset
    fun id member => List.mem_range.mpr (opened.present id member)
  rwa [List.length_range] at le

theorem push (opened : Opened g stack) {id : NodeId} {node : Node} (found : g.node? id = some node)
    (outside : g.resolve id ∉ stack) : Opened g (g.resolve id :: stack) where
  distinct := List.nodup_cons.mpr ⟨outside, opened.distinct⟩
  present := List.forall_mem_cons.mpr
    ⟨(Array.getElem?_eq_some_iff.mp found).1, opened.present⟩

end Opened

theorem writerIn_eq {n : Naming} {stack : List NodeId} (opened : Opened n.graph stack)
    (bound : Bindings) (id : NodeId) : n.writerIn stack bound id =
      nodeTypeWith n (fun id body =>
        if stack.contains id then .object else body (n.writerIn (id :: stack))) bound id := by
  rw [Naming.writerIn]
  cases level : n.graph.nodes.size - stack.length with
  | succ rest =>
    have next : n.graph.nodes.size - (stack.length + 1) = rest := by omega
    simp only [nodeType, Naming.writerIn, List.length_cons, next]
  | zero =>
    rw [nodeType]
    cases found : n.graph.node? id with
    | none =>
      funext given
      rw [nodeTypeWith_of_none found, nodeTypeWith_of_none found]
    | some node =>
      -- No level is left, so all nodes are on the stack.
      have entered : n.graph.resolve id ∈ stack := by
        by_contra outside
        have le := (opened.push found outside).length_le
        rw [List.length_cons] at le
        omega
      refine nodeTypeWith_congr found (.all _) (fun _ => rfl) (fun body body' _ => ?_) (.refl _ _)
      rw [if_pos (List.contains_iff_mem.mpr entered)]

theorem writerIn_of_outside {n : Naming} {stack : List NodeId} (opened : Opened n.graph stack)
    {id : NodeId} {node : Node} (found : n.graph.node? id = some node)
    (outside : n.graph.resolve id ∉ stack) (bound : Bindings) : n.writerIn stack bound id =
      nodeTypeWith n (fun _ body => body (n.writerIn (n.graph.resolve id :: stack))) bound id := by
  rw [writerIn_eq opened]
  refine nodeTypeWith_congr found (.all _) (fun _ => rfl) (fun body body' same => ?_) (.refl _ _)
  rw [if_neg (outside ∘ List.contains_iff_mem.mp)]
  exact same _ _ (nodeType_agree (fun _ node _ _ => .all node.shape) (fun _ _ _ _ _ => rfl) _ _)

theorem writerIn_agree {n : Naming} {among : NodeId → Prop} {shown : String → Prop}
    (closed : ∀ id node, among id → n.graph.node? id = some node → HoldsOnly among shown node.shape)
    {stack stack' : List NodeId} (opened : Opened n.graph stack) (opened' : Opened n.graph stack')
    (same : ∀ id, among id → (n.graph.resolve id ∈ stack ↔ n.graph.resolve id ∈ stack')) :
    Agree among shown (n.writerIn stack) (n.writerIn stack') := by
  induction gap : n.graph.nodes.size - stack.length using Nat.strongRecOn
    generalizing stack stack' with
  | ind gap ih =>
    intro bound bound' alike id member
    rw [writerIn_eq opened, writerIn_eq opened']
    cases found : n.graph.node? id with
    | none =>
      funext given
      rw [nodeTypeWith_of_none found, nodeTypeWith_of_none found]
    | some node =>
      refine nodeTypeWith_congr found (closed id node member found) (fun _ => rfl)
        (fun body body' equal => ?_) alike
      have both := same id member
      by_cases entered : n.graph.resolve id ∈ stack
      · rw [if_pos (List.contains_iff_mem.mpr entered),
          if_pos (List.contains_iff_mem.mpr (both.mp entered))]
      · have entered' := entered ∘ both.mpr
        have pushed := opened.push found entered
        have le := pushed.length_le
        rw [List.length_cons] at le
        rw [if_neg (entered ∘ List.contains_iff_mem.mp),
          if_neg (entered' ∘ List.contains_iff_mem.mp)]
        refine equal _ _ (ih _ ?_ pushed (opened'.push found entered') ?_ rfl)
        · rw [List.length_cons]
          omega
        · intro other member
          rw [List.mem_cons, List.mem_cons, same other member]

/-- What is used leads to the node through references. -/
def LeadsTo (g : Graph) (u : TypeUse) (id : NodeId) : Prop :=
  ∃ target ∈ u.nodes, ReflTransGen g.Refers (g.resolve target) id

theorem use_writerIn_of_apart {n : Naming} {id : NodeId} {stack : List NodeId}
    (opened : Opened n.graph (id :: stack)) {u : TypeUse} (apart : ¬ LeadsTo n.graph u id)
    (bound : Bindings) :
    (n.writerIn (id :: stack)).use bound u = (n.writerIn stack).use bound u := by
  have outer : Opened n.graph stack :=
    ⟨opened.distinct.of_cons, (List.forall_mem_cons.mp opened.present).2⟩
  have closed : ∀ target node, ¬ ReflTransGen n.graph.Refers (n.graph.resolve target) id →
      n.graph.node? target = some node → HoldsOnly
        (fun next => ¬ ReflTransGen n.graph.Refers (n.graph.resolve next) id) (fun _ => True)
        node.shape := by
    refine fun target node away found => ⟨fun next refers back => away (.head ?_ back), by simp⟩
    exact ⟨node, next, found, Graph.Shape.mem_outgoing_iff.mp refers, rfl⟩
  have agree := writerIn_agree closed opened outer fun target away => by
    have ne : n.graph.resolve target ≠ id := by
      rintro rfl
      exact away .refl
    rw [List.mem_cons, or_iff_right ne]
  exact agree.use (.refl _ bound)
    ⟨fun target member back => apart ⟨target, member, back⟩, fun _ _ => trivial⟩

/-- The parameter is mentioned in what is used or in a node that it leads to. -/
def Mentions (g : Graph) (u : TypeUse) (name : String) : Prop :=
  u.mentions name = true ∨ ∃ id node, LeadsTo g u id ∧ g.nodes[id]? = some node ∧
    ∃ v ∈ node.shape.typeUses, v.mentions name = true

theorem mentions_of_dependsOn {n : Naming} {stack : List NodeId} {u : TypeUse} {name : String}
    (depends : DependsOn (fun bound => (n.writerIn stack).use bound u) name) :
    Mentions n.graph u name := by
  obtain ⟨bound, bound', same, different⟩ := depends
  by_contra absent
  rw [Mentions, not_or] at absent
  have closed : ∀ id node, LeadsTo n.graph u (n.graph.resolve id) →
      n.graph.node? id = some node →
      HoldsOnly (fun id => LeadsTo n.graph u (n.graph.resolve id)) (· ≠ name) node.shape := by
    rintro id node ⟨target, inside, path⟩ found
    refine ⟨fun next refers => ⟨target, inside, path.tail ?_⟩, ?_⟩
    · exact ⟨node, next, found, Graph.Shape.mem_outgoing_iff.mp refers, rfl⟩
    · rintro v member other mentions rfl
      exact absent.2 ⟨_, node, ⟨target, inside, path⟩, found, v, member, mentions⟩
  have agree : Agree _ _ (n.writerIn stack) (n.writerIn stack) :=
    nodeType_agree closed (fun _ _ _ _ _ => rfl) _ stack
  refine different (agree.use same ⟨fun id inside => ?_, ?_⟩)
  · exact ⟨id, inside, .refl⟩
  · rintro other mentions rfl
    exact absent.1 mentions

theorem getElem?_argumentsFor (default : TypeUse → TypeRef) (generics : List Graph.Parameter)
    (given : List TypeRef) (i : Nat) : (argumentsFor default generics given)[i]? =
      (generics[i]?).map fun p => (given[i]?).getD ((p.default.map default).getD .object) := by
  induction generics generalizing given i with
  | nil => simp [argumentsFor]
  | cons parameter rest ih =>
    cases given with
    | nil => cases i <;> simp [argumentsFor, ih]
    | cons argument given => cases i <;> simp [argumentsFor, ih]

/-- A node that is written with arguments for its parameters: by its name if it is declared, and as
an array of what its element is with these arguments if it stands for one. -/
inductive WrittenWith (n : Naming) (stack : List NodeId) (id : NodeId) (node : Node)
    (arguments : List TypeRef) : TypeRef → Prop
  | named {name : String} (declared : node.isDeclared = true)
      (isName : n.names.get? (n.graph.resolve id) = some name) :
      WrittenWith n stack id node arguments (.named name arguments)
  | array {element : TypeUse} {generics : List Graph.Parameter}
      (shape : node.shape = .array element generics) :
      WrittenWith n stack id node arguments
        (.array ((n.writerIn (n.graph.resolve id :: stack)).use (bindingsOf generics arguments)
          element))

/-- The arguments of a reference: those it gives come first, and for the others there are the
defaults as they are written at the reference. This is what they are for the arguments before if and
only if what is bound at the reference agrees with these wherever it matters. -/
structure FillsIn (n : Naming) (stack : List NodeId) (bound : Bindings) (id : NodeId)
    (generics : List Graph.Parameter) (given : List TypeUse) (arguments : List TypeRef) : Prop where
  length : arguments.length = generics.length
  supplied : ∀ i u, i < generics.length → given[i]? = some u →
    arguments[i]? = some ((n.writerIn stack).use bound u)
  omitted : ∀ i p d, given.length ≤ i → generics[i]? = some p → p.default = some d →
    ¬ LeadsTo n.graph d (n.graph.resolve id) →
    arguments[i]? = some ((n.writerIn stack).use bound d) ∧
    (arguments[i]? = some ((n.writerIn stack).use (bindingsOf (generics.take i) arguments) d) ↔
      ∀ name, DependsOn (fun bound => (n.writerIn stack).use bound d) name →
        bound.value name = (bindingsOf (generics.take i) arguments).value name) ∧
    ∀ name, DependsOn (fun bound => (n.writerIn stack).use bound d) name →
      Mentions n.graph d name

theorem argumentsFor_fillsIn {n : Naming} {stack : List NodeId} {bound : Bindings} {id : NodeId}
    (opened : Opened n.graph (n.graph.resolve id :: stack)) (generics : List Graph.Parameter)
    (given : List TypeUse) :
    FillsIn n stack bound id generics given
      (argumentsFor (fun u => (n.writerIn (n.graph.resolve id :: stack)).use bound u) generics
        ((n.writerIn stack).uses bound given)) where
  length := argumentsFor_length _ _ _
  supplied i u lt found := by
    rw [getElem?_argumentsFor, NodeWriter.uses, typeUses_eq_map, List.getElem?_map, found,
      List.getElem?_eq_getElem lt]
    rfl
  omitted i p d omitted isParameter isDefault apart := by
    have written : (argumentsFor (fun u => (n.writerIn (n.graph.resolve id :: stack)).use bound u)
        generics ((n.writerIn stack).uses bound given))[i]? =
        some ((n.writerIn stack).use bound d) := by
      rw [getElem?_argumentsFor, isParameter, NodeWriter.uses, typeUses_eq_map,
        List.getElem?_map, List.getElem?_eq_none omitted, Option.map_some, isDefault]
      exact congrArg some (use_writerIn_of_apart opened apart bound)
    refine ⟨written, ?_, fun name => mentions_of_dependsOn⟩
    rw [written, Option.some_inj]
    exact (typeUse_determined (nodeType_determines n _ stack) d).eq_iff _ _

theorem nodeTypeWith_array {n : Naming} {id : NodeId} {node : Node}
    (found : n.graph.node? id = some node) {element : TypeUse} {generics : List Graph.Parameter}
    (shape : node.shape = .array element generics)
    (inside : NodeId → (NodeWriter → TypeRef) → TypeRef) (bound : Bindings) (given : List TypeRef) :
    nodeTypeWith n inside bound id given = inside (n.graph.resolve id) fun writer =>
      .array (writer.use (bindingsOf generics (argumentsFor
        (fun u => inside (n.graph.resolve id) fun writer => writer.use bound u) generics given))
        element) := by
  rw [Graph.node?] at found
  rw [nodeTypeWith]
  simp only [found, shape]
  rfl

theorem declaredArguments_of_generic {node : Node} (generic : node.shape.generics ≠ [])
    (default : TypeUse → TypeRef) (given : List TypeRef) :
    declaredArguments default node.shape given =
      argumentsFor default node.shape.generics given := by
  cases shape : node.shape with
  | classUnion arity =>
    rw [shape] at generic
    exact absurd rfl generic
  | _ => rfl

/-- A reference to a generic node that is not inside this node is written with the arguments it
gives and, for those it leaves out, with the defaults as they are with what is bound at the
reference. -/
theorem use_fillsIn (n : Naming) {stack : List NodeId} (opened : Opened n.graph stack)
    (bound : Bindings) {id : NodeId} {node : Node} (found : n.graph.node? id = some node)
    (generic : node.shape.generics ≠ [])
    (kind : (node.isDeclared = true ∧ ∃ name, n.names.get? (n.graph.resolve id) = some name) ∨
      ∃ element generics, node.shape = .array element generics)
    (outside : n.graph.resolve id ∉ stack) (depth : Nat) (given : List TypeUse) :
    ∃ type arguments,
      (n.writerIn stack).use bound ⟨.node id, depth, given⟩ = type.arrays depth ∧
      WrittenWith n stack id node arguments type ∧
      FillsIn n stack bound id node.shape.generics given arguments := by
  have fills := @argumentsFor_fillsIn n stack bound id (opened.push found outside)
    node.shape.generics given
  rcases kind with ⟨declared, name, isName⟩ | ⟨element, generics, shape⟩
  · refine ⟨_, _, ?_, .named declared isName, fills⟩
    rw [NodeWriter.use, typeUse, writerIn_of_outside opened found outside,
      nodeTypeWith_declared found declared isName, declaredArguments_of_generic generic]
    rfl
  · refine ⟨_, _, ?_, .array shape, fills⟩
    rw [NodeWriter.use, typeUse, writerIn_of_outside opened found outside,
      nodeTypeWith_array found shape, shape]
    rfl

/-- A string and a generic record whose second parameter is by default an array of the first. -/
def couples : Graph := Graph.Operation.runAll Sha256.hex .empty [
  .primitive .string,
  .register {
    name := "Pair"
    shape := .record [] [⟨"A", none⟩, ⟨"B", some ⟨.generic "A", 1, []⟩⟩] }]

theorem use_fillsIn_couples : ∃ node, couples.node? 1 = some node ∧ node.shape.generics ≠ [] ∧
    node.isDeclared = true ∧
    (Naming.of couples {}).names.get? (couples.resolve 1) = some "Pair" ∧
    ∃ type arguments,
      ((Naming.of couples {}).writerIn []).use [("A", .plain "string")]
        ⟨.node 1, 0, [⟨.node 0, 0, []⟩]⟩ = type.arrays 0 ∧
      WrittenWith (Naming.of couples {}) [] 1 node arguments type ∧
      FillsIn (Naming.of couples {}) [] [("A", .plain "string")] 1 node.shape.generics
        [⟨.node 0, 0, []⟩] arguments := by
  have known : (couples.node? 1).any (fun node =>
      node.isDeclared && !node.shape.generics.isEmpty) = true := by decide +kernel
  have named : (Naming.of couples {}).names.get? (couples.resolve 1) = some "Pair" := by
    decide +kernel
  obtain ⟨node, found, both⟩ := (Option.any_eq_true _ _).mp known
  rw [Bool.and_eq_true] at both
  have generic : node.shape.generics ≠ [] := by simpa using both.2
  exact ⟨node, found, generic, both.1, named,
    use_fillsIn (Naming.of couples {}) (.nil couples) _ found generic (.inl ⟨both.1, _, named⟩)
      List.not_mem_nil 0 _⟩

/-- The default of a reference is not that for its arguments: of a pair of a string the second part
should be an array of strings, and is one of whatever is bound to the first parameter outside. -/
theorem use_couples_of_string :
    ((Naming.of couples {}).use ⟨.node 1, 0, [⟨.node 0, 0, []⟩]⟩).print = "Pair<string, A[]>" ∧
    ((Naming.of couples {}).writer.use [("A", .plain "double")]
      ⟨.node 1, 0, [⟨.node 0, 0, []⟩]⟩).print = "Pair<string, double[]>" ∧
    ((Naming.of couples {}).writer.use (bindingsOf [⟨"A", none⟩] [.plain "string"])
      ⟨.generic "A", 1, []⟩).print = "string[]" := by
  refine ⟨?_, ?_, ?_⟩ <;> decide +kernel

end TypeLoom.Code
