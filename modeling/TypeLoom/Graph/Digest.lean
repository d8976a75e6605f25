import TypeLoom.Graph.Basic

/-! Digests of shapes. A node's digest covers its shape and, through the digests of the nodes it
refers to, everything below it; names of nodes and flags do not count, nor do defaults of type
parameters. A reference back to a node whose digest is being taken counts as one fixed mark.

The hash function is a parameter throughout. -/
namespace TypeLoom.Graph

/-- Stands for a reference to a node on the way from the root. -/
def cycleMark : String := "<cycle>"

/-- A hash function on byte strings. -/
abbrev Hash := List UInt8 → String

def bytes (text : String) : List UInt8 :=
  text.toUTF8.toList

/-- The `n` little-endian digits of `x` to base 256. -/
def littleEndian : (n : Nat) → (x : Nat) → List UInt8
  | 0, _ => []
  | n + 1, x => UInt8.ofNat (x % 256) :: littleEndian n (x / 256)

/-- One labelled entry: the label, a zero, the length of the value and the value. -/
def entry (label value : String) : List UInt8 :=
  let content := bytes value
  bytes label ++ 0 :: littleEndian 8 content.length ++ content

def targetText (digest : NodeId → String) : Target → String
  | .node id => digest id
  | .generic name => "generic:" ++ name

mutual

def useText (digest : NodeId → String) : TypeUse → String
  | ⟨target, depth, arguments⟩ =>
    targetText digest target ++ "#" ++ toString depth ++ "#" ++
      ",".intercalate (useTexts digest arguments)

def useTexts (digest : NodeId → String) : List TypeUse → List String
  | [] => []
  | u :: rest => useText digest u :: useTexts digest rest

end

def usesText (digest : NodeId → String) (uses : List TypeUse) : String :=
  ",".intercalate (useTexts digest uses)

def boolText (b : Bool) : String :=
  if b then "true" else "false"

def propertyText (digest : NodeId → String) (p : Property) : String :=
  p.name ++ ":" ++ targetText digest p.type.target ++ "#" ++ boolText p.optional ++ "#" ++
    toString p.type.arrayDepth ++ "#" ++ usesText digest p.type.arguments

def memberText (m : Member) : String :=
  m.name ++ "=" ++ ((m.value.map toString).getD "") ++ "=" ++ m.wire.getD ""

def constantText (digest : NodeId → String) (c : Constant) : String :=
  c.name ++ ":" ++ useText digest c.type ++ ":" ++ c.value.display

def keyText : IndexKey → String
  | .string => "String"
  | .number => "Number"

/-- Entries for what the shape holds besides its label and type parameters. Properties are hashed
one by one and sorted, so that their order does not count. -/
def contentEntries (hash : Hash) (digest : NodeId → String) : Shape → List UInt8
  | .primitive kind => entry "name" kind.label
  | .record properties _ =>
    let hashes := properties.map fun p => hash (bytes (propertyText digest p))
    (hashes.mergeSort fun a b => !decide (b < a)).flatMap (entry "property")
  | .stringUnion members => members.flatMap fun m => entry "member" (memberText m)
  | .array element _ => entry "element" (useText digest element)
  | .dictionary key value _ => entry "index" (keyText key) ++ entry "value" (useText digest value)
  | .constants items => items.flatMap fun c => entry "const" (constantText digest c)
  | .tuple elements _ =>
    entry "arity" (toString elements.length) ++
      elements.flatMap fun e => entry "element" (useText digest e)
  | .instantiation base arguments _ =>
    entry "base" (digest base) ++ entry "arguments" (usesText digest arguments)
  | .classUnion arity => entry "arity" (toString arity)
  | .classUnionInstance base members =>
    entry "base" (digest base) ++ entry "members" (usesText digest members)

/-- Everything that a shape's digest is taken of, given the digests of other nodes. -/
def shapeEntries (hash : Hash) (digest : NodeId → String) (shape : Shape) : List UInt8 :=
  let generics := match shape.generics with
    | [] => []
    | parameters => entry "generics" (",".intercalate (parameters.map Parameter.name))
  entry "token" shape.label ++ generics ++ contentEntries hash digest shape

/-- The digest below a stack of nodes whose digests are being taken. At level zero every node is on
the stack. -/
def digestBelow (hash : Hash) (g : Graph) : (level : Nat) → (stack : List NodeId) → NodeId → String
  | 0, _, _ => cycleMark
  | level + 1, stack, id =>
    let id := g.resolve id
    if stack.contains id then cycleMark
    else match g.nodes[id]? with
      | none => cycleMark
      | some node => hash (shapeEntries hash (digestBelow hash g level (id :: stack)) node.shape)

/-- The digest of a node, computed from scratch. -/
def plainDigest (hash : Hash) (g : Graph) (id : NodeId) : String :=
  digestBelow hash g g.nodes.size [] id

/-! ### Digests with memory -/

/-- The nodes on which the digest of a shape depends directly. -/
def Shape.digested (s : Shape) : List NodeId :=
  s.base?.toList ++ s.ownUses.flatMap TypeUse.nodes

/-- A digest, whether it met no cycle, and the digests known by then. -/
structure Walk where
  digest : String
  acyclic : Bool
  known : Table NodeId String

/-- Take digests of nodes one after the other, handing on what is known. -/
def walkAll (walk : Table NodeId String → NodeId → Walk) :
    Table NodeId String → List NodeId → Table NodeId String × Bool × Table NodeId String
  | known, [] => ({}, true, known)
  | known, id :: rest =>
    let first := walk known id
    let (digests, acyclic, known) := walkAll walk first.known rest
    (digests.insert id first.digest, first.acyclic && acyclic, known)

/-- As `digestBelow`, but a digest that met no cycle is kept: it is the same below every stack. -/
def walkBelow (hash : Hash) (g : Graph) :
    (level : Nat) → (stack : List NodeId) → Table NodeId String → NodeId → Walk
  | 0, _, known, _ => ⟨cycleMark, false, known⟩
  | level + 1, stack, known, id =>
    let id := g.resolve id
    match known.get? id with
    | some digest => ⟨digest, true, known⟩
    | none =>
      if stack.contains id then ⟨cycleMark, false, known⟩
      else match g.nodes[id]? with
        | none => ⟨cycleMark, false, known⟩
        | some node =>
          let (digests, acyclic, known) :=
            walkAll (walkBelow hash g level (id :: stack)) known node.shape.digested
          let digest :=
            hash (shapeEntries hash (fun j => (digests.get? j).getD cycleMark) node.shape)
          ⟨digest, acyclic, if acyclic then known.insert id digest else known⟩

/-- Forget digests that a change has outdated. -/
def refreshCache (g : Graph) : Graph :=
  if g.cache.stale then g.forgetDigests else g

/-- The digest of a node, with the help of those known from before. -/
def digest (hash : Hash) (g : Graph) (id : NodeId) : String × Graph :=
  let g := g.refreshCache
  let id := g.resolve id
  match g.cache.asked.get? id with
  | some digest => (digest, g)
  | none =>
    let walk := walkBelow hash g g.nodes.size [] g.cache.acyclic id
    (walk.digest, { g with cache := { g.cache with
      asked := g.cache.asked.insert id walk.digest
      acyclic := walk.known } })

/-- Digests of several nodes in order. -/
def digests (hash : Hash) : Graph → List NodeId → List (NodeId × String) × Graph
  | g, [] => ([], g)
  | g, id :: rest =>
    let (digest, g) := g.digest hash id
    let (others, g) := digests hash g rest
    ((id, digest) :: others, g)

end TypeLoom.Graph
