import TypeLoom.Proofs.Growth

/-! Which nodes registration takes for the same. A node is looked up by one text, made of its name,
a separator and its origin. Different identities may come to the same text: where a name has the
separator in it, and where an origin that is given reads like one that is issued. Main result: a
node is mistaken for another one exactly if that one is there already and blurs with it in this way.
-/
namespace TypeLoom.Graph

def issuedOrigin (number : Nat) : String := "synthetic-" ++ toString number

inductive Origin where
  | given (text : String)
  | issued (number : Nat)
deriving DecidableEq

def Origin.text : Origin → String
  | given text => text
  | issued number => issuedOrigin number

/-- What a node is registered as. -/
structure Identity where
  name : String
  origin : Origin
deriving DecidableEq

def Identity.key (i : Identity) : String := i.name ++ "#" ++ i.origin.text

/-- Different identities with the same key. -/
inductive Identity.Blurs (a b : Identity) : Prop
  /-- An origin that is given reads like the one that is issued. -/
  | origin (name : a.name = b.name) (number : Nat)
      (alike : a.origin = .given (issuedOrigin number) ∧ b.origin = .issued number ∨
        a.origin = .issued number ∧ b.origin = .given (issuedOrigin number))
  /-- The end of the first name reads like the beginning of the second origin. -/
  | left (part : String) (name : a.name = b.name ++ "#" ++ part)
      (origin : b.origin.text = part ++ "#" ++ a.origin.text)
  | right (part : String) (name : b.name = a.name ++ "#" ++ part)
      (origin : a.origin.text = part ++ "#" ++ b.origin.text)

theorem issuedOrigin_inj {m n : Nat} (same : issuedOrigin m = issuedOrigin n) : m = n :=
  toString_inj ((String.append_right_inj _).mp same)

theorem separated_eq_iff {mark : String} {sign : Char} (single : mark.toList = [sign])
    (a b c d : String) : a ++ mark ++ b = c ++ mark ++ d ↔
      (a = c ∧ b = d) ∨ (∃ part, a = c ++ mark ++ part ∧ d = part ++ mark ++ b) ∨
        ∃ part, c = a ++ mark ++ part ∧ b = part ++ mark ++ d := by
  have longer {a b c d : String} {more : List Char} (first : c.toList = a.toList ++ more)
      (rest : sign :: b.toList = more ++ sign :: d.toList) :
      (a = c ∧ b = d) ∨ ∃ part, c = a ++ mark ++ part ∧ b = part ++ mark ++ d := by
    cases more with
    | nil =>
      rw [List.append_nil] at first
      exact .inl ⟨String.toList_inj.mp first.symm, String.toList_inj.mp (List.cons.inj rest).2⟩
    | cons own more =>
      obtain ⟨rfl, inner⟩ := List.cons.inj rest
      refine .inr ⟨String.ofList more, String.toList_inj.mp ?_, String.toList_inj.mp ?_⟩
      · simp [first, single]
      · simpa [single] using inner
  constructor
  · intro same
    have chars : a.toList ++ sign :: b.toList = c.toList ++ sign :: d.toList := by
      simpa [single] using congrArg String.toList same
    rcases List.append_eq_append_iff.mp chars with ⟨more, first, rest⟩ | ⟨more, first, rest⟩
    · exact (longer first rest).imp_right .inr
    · exact (longer first rest).imp (fun both => ⟨both.1.symm, both.2.symm⟩) .inl
  · rintro (⟨rfl, rfl⟩ | ⟨part, rfl, rfl⟩ | ⟨part, rfl, rfl⟩)
    · rfl
    all_goals simp only [String.append_assoc]

theorem Identity.key_eq_iff {a b : Identity} : a.key = b.key ↔ a = b ∨ a.Blurs b := by
  rw [Identity.key, Identity.key, @separated_eq_iff _ '#' rfl]
  constructor
  · rintro (⟨name, origin⟩ | ⟨part, name, origin⟩ | ⟨part, name, origin⟩)
    · obtain ⟨nameA, originA⟩ := a
      obtain ⟨nameB, originB⟩ := b
      obtain rfl : nameA = nameB := name
      cases originA with
      | given text =>
        cases originB with
        | given other =>
          obtain rfl : text = other := origin
          exact .inl rfl
        | issued number =>
          obtain rfl : text = issuedOrigin number := origin
          exact .inr (.origin rfl number (.inl ⟨rfl, rfl⟩))
      | issued number =>
        cases originB with
        | given other =>
          obtain rfl : issuedOrigin number = other := origin
          exact .inr (.origin rfl number (.inr ⟨rfl, rfl⟩))
        | issued other =>
          obtain rfl : number = other := issuedOrigin_inj origin
          exact .inl rfl
    · exact .inr (.left part name origin)
    · exact .inr (.right part name origin)
  · rintro (rfl | ⟨name, number, ⟨first, second⟩ | ⟨first, second⟩⟩ | ⟨part, name, origin⟩ |
      ⟨part, name, origin⟩)
    · exact .inl ⟨rfl, rfl⟩
    · exact .inl ⟨name, by rw [first, second]; rfl⟩
    · exact .inl ⟨name, by rw [first, second]; rfl⟩
    · exact .inr (.inl ⟨part, name, origin⟩)
    · exact .inr (.inr ⟨part, name, origin⟩)

theorem Identity.Blurs.ne {a b : Identity} (blurs : a.Blurs b) : a ≠ b := by
  rintro rfl
  have longer {s t : String} : s ≠ s ++ "#" ++ t := by
    intro same
    have length := congrArg String.length same
    simp only [String.length_append] at length
    have : "#".length = 1 := rfl
    omega
  cases blurs with
  | origin _ number alike =>
    obtain ⟨first, second⟩ | ⟨first, second⟩ := alike
    all_goals
      rw [first] at second
      cases second
  | left part name _ => exact longer name
  | right part name _ => exact longer name

def identityOf (g : Graph) (node : Node) : Identity :=
  ⟨node.name, (node.origin.map Origin.given).getD (.issued (g.issued + 1))⟩

theorem identify_visible (g : Graph) {node : Node} (named : node.shape.isNamed = true)
    (visible : Text.isBlankText node.name.toList = false) :
    ∃ keyed issued, g.identify node = .ok (keyed, { g with issued := issued }) ∧
      g.issued ≤ issued ∧ (node.origin = none → g.issued < issued) ∧ keyed.shape = node.shape ∧
      keyed.key = (g.identityOf node).key := by
  rw [identify]
  split
  · rename_i shape
    rw [shape] at named
    cases named
  · rename_i shape
    rw [shape] at named
    cases named
  · rw [visible, if_neg Bool.false_ne_true, identityOf]
    cases origin : node.origin with
    | some text => exact ⟨_, g.issued, rfl, le_rfl, by simp, rfl, rfl⟩
    | none => exact ⟨_, g.issued + 1, rfl, Nat.le_succ _, fun _ => Nat.lt_succ_self _, rfl, rfl⟩

theorem settle_appends (g : Graph) (steps : Nat) {node : Node}
    (other : ∀ shape, sameUnion node.shape shape = false) :
    ∃ findings placed, placed.key = node.key ∧
      settle steps g node = ({ g with findings := findings } : Graph).push placed := by
  induction steps generalizing g node with
  | zero => exact ⟨g.findings, node, rfl, rfl⟩
  | succ steps ih =>
    rw [settle]
    cases g.liveByName node.name with
    | none => exact ⟨g.findings, node, rfl, rfl⟩
    | some taken =>
      dsimp only
      cases g.nodes[taken]? with
      | none => exact ⟨g.findings, node, rfl, rfl⟩
      | some before =>
        dsimp only
        rw [other before.shape, if_neg Bool.false_ne_true]
        exact @ih _ { node with
          name := renamed node, formerName := some (node.formerName.getD node.name) } other

theorem register_ordinary {g : Graph} (intact : g.redirects = {}) {node : Node}
    (ordinary : node.shape.isOrdinary = true)
    (visible : Text.isBlankText node.name.toList = false) :
    ∃ id g', g.register node = .ok (id, g') ∧ g'.redirects = {} ∧ g.issued ≤ g'.issued ∧
      (node.origin = none → g.issued < g'.issued) ∧
      ((g.keys.get? (g.identityOf node).key = some id ∧ g'.nodes.size = g.nodes.size ∧
          g'.keys = g.keys) ∨
        (g.keys.get? (g.identityOf node).key = none ∧ id = g.nodes.size ∧
          g'.nodes.size = g.nodes.size + 1 ∧
          g'.keys = g.keys.insert (g.identityOf node).key g.nodes.size)) := by
  obtain ⟨keyed, issued, identified, later, more, shape, key⟩ :=
    g.identify_visible (Shape.isNamed_of_isOrdinary ordinary) visible
  have notPrimitive : keyed.shape.isPrimitive = false := by
    rw [shape]
    revert ordinary
    cases node.shape <;> simp [Shape.isOrdinary, Shape.isPrimitive]
  rw [register, identified]
  simp only [bind, Except.bind, key]
  cases hit : g.keys.get? (g.identityOf node).key with
  | some existing =>
    refine ⟨_, _, rfl, intact, later, more, .inl ⟨?_, rfl, rfl⟩⟩
    rw [resolve_of_end]
    exact intact ▸ rfl
  | none =>
    obtain ⟨findings, placed, placedKey, settled⟩ := settle_appends
      { g with issued := issued } (g.names.size + 1)
        (shape ▸ Shape.sameUnion_of_isOrdinary ordinary)
    dsimp only
    rw [notPrimitive, if_neg Bool.false_ne_true, settled]
    refine ⟨_, _, rfl, intact, later, more, .inr ⟨rfl, rfl, by simp [touch], ?_⟩⟩
    rw [← key, ← placedKey]
    rfl

/-- A graph, and for each of its nodes in order what it was registered as. -/
structure Roll where
  graph : Graph
  identities : List Identity

/-- Register one more node. Nothing comes of a node without a name or one that is there already. -/
def Roll.enroll (r : Roll) (node : Node) : Roll :=
  match r.graph.register node with
  | .error _ => r
  | .ok (id, g) =>
    ⟨g, if id < r.graph.nodes.size then r.identities else r.identities ++ [r.graph.identityOf node]⟩

def Roll.of (nodes : List Node) : Roll := nodes.foldl Roll.enroll ⟨.empty, []⟩

/-- Nodes are known by the keys of what they were registered as, and issued numbers are used up. -/
structure Roll.Kept (r : Roll) (nodes : List Node) : Prop where
  redirects : r.graph.redirects = {}
  length : r.identities.length = r.graph.nodes.size
  keys : ∀ key id, r.graph.keys.get? key = some id ↔
    (r.identities[id]?).map Identity.key = some key
  issued : ∀ i ∈ r.identities, ∀ number, i.origin = .issued number → number ≤ r.graph.issued
  came : ∀ i ∈ r.identities, ∃ node ∈ nodes, i.name = node.name ∧
    ∀ text, i.origin = .given text → node.origin = some text

theorem Roll.kept_nil : Roll.Kept ⟨.empty, []⟩ [] where
  redirects := rfl
  length := rfl
  keys key id := by simp [empty]
  issued := by simp
  came := by simp

theorem register_blank {g : Graph} {node : Node} (named : node.shape.isNamed = true)
    (blank : Text.isBlankText node.name.toList = true) :
    ∃ e, g.register node = .error e := by
  cases done : g.register node with
  | error e => exact ⟨e, rfl⟩
  | ok pair =>
    obtain ⟨⟨keyed, g₁⟩, identified, -⟩ := ok_of_bind done
    rw [(identify_cases named identified).1] at blank
    cases blank

theorem identityOf_origin_given {g : Graph} {node : Node} {text : String}
    (given : (g.identityOf node).origin = .given text) : node.origin = some text := by
  rw [identityOf] at given
  cases origin : node.origin with
  | some own =>
    rw [origin] at given
    exact congrArg some (Origin.given.inj given)
  | none =>
    rw [origin] at given
    cases given

theorem identityOf_origin_issued {g : Graph} {node : Node} {number : Nat}
    (issued : (g.identityOf node).origin = .issued number) :
    node.origin = none ∧ number = g.issued + 1 := by
  rw [identityOf] at issued
  cases origin : node.origin with
  | some own =>
    rw [origin] at issued
    cases issued
  | none =>
    rw [origin] at issued
    exact ⟨rfl, (Origin.issued.inj issued).symm⟩

namespace Roll.Kept
variable {r : Roll} {nodes : List Node} (kept : r.Kept nodes) {node : Node}
include kept

theorem mono (more : List Node) : r.Kept (nodes ++ more) where
  redirects := kept.redirects
  length := kept.length
  keys := kept.keys
  issued := kept.issued
  came i member := by
    obtain ⟨node, inside, came⟩ := kept.came i member
    exact ⟨node, List.mem_append_left more inside, came⟩

theorem enroll (ordinary : node.shape.isOrdinary = true) :
    (r.enroll node).Kept (nodes ++ [node]) := by
  have named := Shape.isNamed_of_isOrdinary ordinary
  cases blank : Text.isBlankText node.name.toList with
  | true =>
    obtain ⟨e, failed⟩ := @register_blank r.graph node named blank
    rw [Roll.enroll, failed]
    exact kept.mono [node]
  | false =>
    obtain ⟨id, g, done, redirects, later, more, ⟨hit, size, keys⟩ | ⟨absent, isNew, size, keys⟩⟩ :=
      register_ordinary kept.redirects ordinary blank
    · have inside : id < r.graph.nodes.size := by
        have listed := (kept.keys _ _).mp hit
        obtain ⟨i, here, -⟩ := Option.map_eq_some_iff.mp listed
        rw [← kept.length]
        exact (List.getElem?_eq_some_iff.mp here).1
      rw [Roll.enroll, done]
      dsimp only
      rw [if_pos inside]
      refine ⟨redirects, kept.length.trans size.symm, fun key id => ?_,
        fun i member number own => ?_, (kept.mono [node]).came⟩
      · rw [keys]
        exact kept.keys key id
      · exact (kept.issued i member number own).trans later
    · subst isNew
      rw [Roll.enroll, done]
      dsimp only
      rw [if_neg (lt_irrefl _)]
      refine ⟨redirects, ?_, fun key id => ?_, fun i member number own => ?_, fun i member => ?_⟩
      · rw [List.length_append, kept.length, size]
        rfl
      · -- The key of the new node is not that of an earlier one, so both sides change alike.
        rw [keys, Table.get?_insert, List.getElem?_append, kept.length]
        split_ifs with same inside inside
        · refine iff_of_false (fun last => inside.ne' (Option.some.inj last)) fun listed => ?_
          rw [← kept.keys, same, absent] at listed
          cases listed
        · rw [same, Option.some_inj]
          constructor
          · rintro rfl
            rw [Nat.sub_self]
            rfl
          · intro listed
            obtain ⟨i, here, -⟩ := Option.map_eq_some_iff.mp listed
            have only := (List.getElem?_eq_some_iff.mp here).1
            rw [List.length_singleton, Nat.lt_one_iff, Nat.sub_eq_zero_iff_le] at only
            exact Nat.le_antisymm (Nat.not_lt.mp inside) only
        · exact kept.keys key id
        · refine iff_of_false (fun hit => ?_) fun listed => ?_
          · obtain ⟨i, here, -⟩ := Option.map_eq_some_iff.mp ((kept.keys key id).mp hit)
            exact inside (kept.length ▸ (List.getElem?_eq_some_iff.mp here).1)
          · obtain ⟨i, here, own⟩ := Option.map_eq_some_iff.mp listed
            rw [List.mem_singleton.mp (List.mem_of_getElem? here)] at own
            exact same own.symm
      · rcases List.mem_append.mp member with old | new
        · exact (kept.issued i old number own).trans later
        · rw [List.mem_singleton.mp new] at own
          obtain ⟨without, rfl⟩ := identityOf_origin_issued own
          exact more without
      · rcases List.mem_append.mp member with old | new
        · exact (kept.mono [node]).came i old
        · rw [List.mem_singleton.mp new]
          exact ⟨node, List.mem_append_right _ (List.mem_singleton_self node), rfl,
            fun text => identityOf_origin_given⟩

end Roll.Kept

theorem Roll.kept_of {nodes : List Node} (ordinary : ∀ node ∈ nodes, node.shape.isOrdinary = true) :
    (Roll.of nodes).Kept nodes := by
  induction nodes using List.reverseRecOn with
  | nil => exact Roll.kept_nil
  | append_singleton nodes node ih =>
    rw [Roll.of, List.foldl_append]
    exact (ih fun other member => ordinary other (List.mem_append_left _ member)).enroll
      (ordinary node (List.mem_append_right _ (List.mem_singleton_self node)))

/-- The node at `id` was registered with the name and the origin that this node brings. -/
def Roll.IsSame (r : Roll) (id : NodeId) (node : Node) : Prop :=
  ∃ origin, node.origin = some origin ∧ r.identities[id]? = some ⟨node.name, .given origin⟩

/-- The name has no separator, and the origin is not like those that are issued. -/
def Node.Distinct (node : Node) : Prop :=
  '#' ∉ node.name.toList ∧ ∀ number, node.origin ≠ some (issuedOrigin number)

namespace Roll.Kept
variable {r : Roll} {nodes : List Node} (kept : r.Kept nodes)
include kept

theorem get?_key {i : Identity} (member : i ∈ r.identities) :
    ∃ id, r.identities[id]? = some i ∧ r.graph.keys.get? i.key = some id := by
  obtain ⟨id, here⟩ := List.mem_iff_getElem?.mp member
  exact ⟨id, here, (kept.keys _ id).mpr (by rw [here, Option.map_some])⟩

theorem not_blurs {node : Node} (distinct : ∀ other ∈ node :: nodes, other.Distinct) :
    ∀ i ∈ r.identities, ¬ i.Blurs (r.graph.identityOf node) := by
  intro i member blurs
  obtain ⟨other, inside, name, origin⟩ := kept.came i member
  have before := distinct other (List.mem_cons_of_mem _ inside)
  have own := distinct node List.mem_cons_self
  cases blurs with
  | origin _ number alike =>
    rcases alike with ⟨given, -⟩ | ⟨-, given⟩
    · exact before.2 number (origin _ given)
    · exact own.2 number (identityOf_origin_given given)
  | left part split _ =>
    refine before.1 ?_
    rw [← name, split]
    simp
  | right part split _ =>
    refine own.1 ?_
    rw [show node.name = i.name ++ "#" ++ part from split]
    simp

/-- Who has the identity of a node that comes, and is there already, was given its origin. -/
theorem isSame_of_eq {node : Node} {id : NodeId}
    (here : r.identities[id]? = some (r.graph.identityOf node)) : r.IsSame id node := by
  cases origin : (r.graph.identityOf node).origin with
  | given text =>
    refine ⟨text, identityOf_origin_given origin, here.trans ?_⟩
    rw [← origin]
    rfl
  | issued number =>
    have old := kept.issued _ (List.mem_of_getElem? here) number origin
    rw [(identityOf_origin_issued origin).2] at old
    exact absurd old (Nat.not_succ_le_self _)

end Roll.Kept

theorem Roll.IsSame.identity {r : Roll} {id : NodeId} {node : Node} (same : r.IsSame id node) :
    r.identities[id]? = some (r.graph.identityOf node) := by
  obtain ⟨origin, given, here⟩ := same
  rw [here, identityOf, given]
  rfl

/-- What registering a node comes to: it is given the node of the same key, or a new one if no node
has its key. -/
def Roll.Answers (r : Roll) (node : Node) (id : NodeId) (g : Graph) : Prop :=
  (id < r.graph.nodes.size ∧ g.nodes.size = r.graph.nodes.size ∧
    ∃ i, r.identities[id]? = some i ∧ i.key = (r.graph.identityOf node).key) ∨
  (id = r.graph.nodes.size ∧ g.nodes.size = r.graph.nodes.size + 1 ∧
    ∀ i ∈ r.identities, i.key ≠ (r.graph.identityOf node).key)

theorem Roll.Kept.answers {r : Roll} {nodes : List Node} (kept : r.Kept nodes) {node : Node}
    (ordinary : node.shape.isOrdinary = true)
    (visible : Text.isBlankText node.name.toList = false) :
    ∃ id g, r.graph.register node = .ok (id, g) ∧ r.Answers node id g := by
  obtain ⟨id, g, done, -, -, -, ⟨hit, size, -⟩ | ⟨absent, isNew, size, -⟩⟩ :=
    register_ordinary kept.redirects ordinary visible
  · obtain ⟨i, here, key⟩ := Option.map_eq_some_iff.mp ((kept.keys _ id).mp hit)
    have inside := (List.getElem?_eq_some_iff.mp here).1
    exact ⟨id, g, done, .inl ⟨kept.length ▸ inside, size, i, here, key⟩⟩
  · refine ⟨id, g, done, .inr ⟨isNew, size, fun i member key => ?_⟩⟩
    obtain ⟨place, -, hit⟩ := kept.get?_key member
    rw [key, absent] at hit
    cases hit

theorem Roll.Kept.isSame_iff {r : Roll} {nodes : List Node} (kept : r.Kept nodes) {node : Node}
    {id : NodeId} {g : Graph} (answers : r.Answers node id g) :
    (id < r.graph.nodes.size → r.IsSame id node) ↔
      ∀ i ∈ r.identities, ¬ i.Blurs (r.graph.identityOf node) := by
  rcases answers with ⟨inside, -, i, here, key⟩ | ⟨isNew, -, others⟩
  · constructor
    · intro same j member blurs
      -- Only one node has the key.
      obtain ⟨place, there, hit⟩ := kept.get?_key member
      have hit' := (kept.keys _ id).mpr (by rw [here, Option.map_some])
      rw [Identity.key_eq_iff.mpr (.inr blurs), ← key, hit', Option.some_inj] at hit
      rw [← hit, (same inside).identity, Option.some_inj] at there
      exact blurs.ne there.symm
    · intro clear _
      have equal := (Identity.key_eq_iff.mp key).resolve_right (clear i (List.mem_of_getElem? here))
      exact kept.isSame_of_eq (equal ▸ here)
  · refine iff_of_true (fun inside => absurd isNew inside.ne) fun i member blurs => ?_
    exact others i member (Identity.key_eq_iff.mpr (.inr blurs))

/-- A node with a name is given the node that has the same key, or becomes a new one. The node that
it is given was registered with the same name and the same origin, if no node that is there blurs
with it, and only then; a node without an origin is a new one then. Where no name has a separator
and no origin reads like an issued one, this is always so. -/
theorem register_same_iff {history : List Node}
    (ordinary : ∀ other ∈ history, other.shape.isOrdinary = true) {node : Node}
    (isOrdinary : node.shape.isOrdinary = true)
    (visible : Text.isBlankText node.name.toList = false) :
    ∃ id g, (Roll.of history).graph.register node = .ok (id, g) ∧
      (Roll.of history).Answers node id g ∧
      ((id < (Roll.of history).graph.nodes.size → (Roll.of history).IsSame id node) ↔
        ∀ i ∈ (Roll.of history).identities, ¬ i.Blurs ((Roll.of history).graph.identityOf node)) ∧
      ((∀ other ∈ node :: history, other.Distinct) →
        id < (Roll.of history).graph.nodes.size → (Roll.of history).IsSame id node) := by
  have kept := Roll.kept_of ordinary
  obtain ⟨id, g, done, answers⟩ := kept.answers isOrdinary visible
  have isSame_iff := kept.isSame_iff answers
  exact ⟨id, g, done, answers, isSame_iff, fun distinct => isSame_iff.mpr (kept.not_blurs distinct)⟩

def Node.bare (name : String) (origin : Option String) : Node :=
  { name := name, origin := origin, shape := .record [] [] }

/-- Three nodes of one name: with two origins, and without one. -/
def Roll.users : List Node := [.bare "User" (some "a"), .bare "User" none, .bare "User" (some "b")]

theorem register_same_iff_users :
    (∀ other ∈ Roll.users, other.shape.isOrdinary = true) ∧
    (Node.bare "User" (some "b")).shape.isOrdinary = true ∧
    Text.isBlankText (Node.bare "User" (some "b")).name.toList = false ∧
    ∃ id g, (Roll.of Roll.users).graph.register (.bare "User" (some "b")) = .ok (id, g) ∧
      (Roll.of Roll.users).Answers (.bare "User" (some "b")) id g ∧
      ((id < (Roll.of Roll.users).graph.nodes.size →
          (Roll.of Roll.users).IsSame id (.bare "User" (some "b"))) ↔
        ∀ i ∈ (Roll.of Roll.users).identities,
          ¬ i.Blurs ((Roll.of Roll.users).graph.identityOf (.bare "User" (some "b")))) ∧
      ((∀ other ∈ Node.bare "User" (some "b") :: Roll.users, other.Distinct) →
        id < (Roll.of Roll.users).graph.nodes.size →
          (Roll.of Roll.users).IsSame id (.bare "User" (some "b"))) :=
  ⟨by decide, rfl, by decide, register_same_iff (by decide) rfl (by decide)⟩

/-- A separator in a name, an origin like the one that was issued, and one like the one to be
issued: each time the node is given one of another identity. -/
theorem register_gives_another :
    (((Roll.of [.bare "A#b" (some "c")]).graph.register (.bare "A" (some "b#c"))).map Prod.fst =
        .ok 0 ∧
      0 < (Roll.of [.bare "A#b" (some "c")]).graph.nodes.size ∧
      ¬ (Roll.of [.bare "A#b" (some "c")]).IsSame 0 (.bare "A" (some "b#c"))) ∧
    (((Roll.of [.bare "A" none]).graph.register (.bare "A" (some "synthetic-1"))).map Prod.fst =
        .ok 0 ∧
      0 < (Roll.of [.bare "A" none]).graph.nodes.size ∧
      ¬ (Roll.of [.bare "A" none]).IsSame 0 (.bare "A" (some "synthetic-1"))) ∧
    (((Roll.of [.bare "A" (some "synthetic-1")]).graph.register (.bare "A" none)).map Prod.fst =
        .ok 0 ∧
      0 < (Roll.of [.bare "A" (some "synthetic-1")]).graph.nodes.size ∧
      ¬ (Roll.of [.bare "A" (some "synthetic-1")]).IsSame 0 (.bare "A" none)) := by
  refine ⟨⟨by decide, by decide, fun same => ?_⟩, ⟨by decide, by decide, fun same => ?_⟩,
    by decide, by decide, fun same => ?_⟩
  all_goals exact absurd same.identity (by decide)

end TypeLoom.Graph
