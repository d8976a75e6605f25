import TypeLoom.Graph.Register

/-! Lookups: by key, by display name, by the text of a type, by a member of an enum; and the nodes
that are declarations of the output, in their order. -/
namespace TypeLoom.Graph

def findByKey (g : Graph) (key : String) : Option NodeId :=
  (g.keys.get? key).map g.resolve

def findByName (g : Graph) (name : String) : Option NodeId :=
  match g.liveByName name with
  | some id => some id
  | none => (g.liveNodes.find? fun (_, node) => node.name == name).map Prod.fst

/-- Drop rank groups from the end, read backwards; blanks in front of a group go with it. -/
def dropRanks : (size : Nat) → (backwards : List Char) → List Char
  | size + 1, ']' :: rest =>
    match rest.dropWhile fun c => c == ',' || Text.isBlank c with
    | '[' :: before => dropRanks size (before.dropWhile Text.isBlank)
    | _ => ']' :: rest
  | _, text => text

/-- The name in the text of a type: without ranks at its end and without arguments. -/
def nameOfTypeText (text : String) : String :=
  let trimmed := Text.trim text.toList
  let rest := (dropRanks trimmed.length trimmed.reverse).reverse
  String.ofList (if rest.contains '<' then Text.trim (rest.takeWhile (· ≠ '<')) else rest)

def findByTypeText (g : Graph) (text : String) : Option NodeId :=
  let name := nameOfTypeText text
  if name.isEmpty then none else g.findByName name

def hasMember (member : String) : Shape → Bool
  | .stringUnion members => members.any fun m => m.name == member
  | _ => false

/-- Live enums with a member of this name. -/
def unionsWith (g : Graph) (member : String) : List (NodeId × Node) :=
  g.liveNodes.filter fun entry => hasMember member entry.2.shape

/-- Has the display name now, or had it before it was renamed. -/
def Node.isCalled (n : Node) (name : String) : Bool :=
  n.name == name || n.formerName == some name

/-- The only enum with a member of this name. If there are several, the name of the enum may decide;
otherwise the lookup finds nothing and says so. -/
def findUnion (g : Graph) (member : String) (hint : Option String) : Option NodeId × Graph :=
  let candidates := g.unionsWith member
  match candidates.filter fun entry => hint.any entry.2.isCalled, candidates with
  | [(id, _)], _ => (some id, g)
  | _, [] => (none, g)
  | _, [(id, _)] => (some id, g)
  | _, many =>
    let names := ", ".intercalate (many.map fun entry => entry.2.name)
    (none, g.report .ambiguousUnion member ("member is declared by " ++ names))

/-! ### Declarations -/

/-- Without any pruning everything is retained. -/
def isRetained (g : Graph) (id : NodeId) : Bool :=
  match g.retained with
  | some ids => ids.contains (g.resolve id)
  | none => true

/-- Whether a node is written as a declaration rather than in place. -/
def Node.isDeclared (n : Node) : Bool :=
  match n.shape with
  | .dictionary .. | .tuple .. | .instantiation .. => !n.flags.anonymous
  | .constants items => !items.isEmpty
  | shape => shape.declarationKind?.isSome

def isDeclared (g : Graph) (id : NodeId) : Bool :=
  (g.node? id).any Node.isDeclared

/-- The place of a declaration: by kind, then by name, then by number. -/
structure DeclarationKey where
  rank : Nat
  name : String
  id : NodeId

def DeclarationKey.le (a b : DeclarationKey) : Bool :=
  if a.rank ≠ b.rank then a.rank < b.rank
  else if a.name ≠ b.name then a.name < b.name
  else a.id ≤ b.id

def declarationKeys (g : Graph) : List DeclarationKey :=
  g.liveNodes.filterMap fun (id, node) =>
    if g.isRetained id && node.isDeclared then
      node.shape.declarationKind?.map fun kind => ⟨kind.rank, node.name, id⟩
    else none

/-- The declarations of the output, in order. -/
def declarations (g : Graph) : List NodeId :=
  (g.declarationKeys.mergeSort DeclarationKey.le).map DeclarationKey.id

end TypeLoom.Graph
