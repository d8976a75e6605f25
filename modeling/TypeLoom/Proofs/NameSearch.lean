import TypeLoom.Proofs.FreshNames

/-! The search for a display name, without a bound on its steps. A node that comes to a taken name
goes on to the next one, until a name is free or is that of a base of the same class unions. The
names tried are all different, so there are no more steps than names. Main result: registration ends
as the search does, and unless a base is met it takes the first free name. -/
namespace TypeLoom.Graph

/-- The names that are tried for a node, one after the other. -/
def Node.tried (node : Node) : Nat → String
  | 0 => node.name
  | k + 1 => renamed { node with name := node.tried k }

/-- The node under the next name. The first name that it had is remembered. -/
def Node.goOn (node : Node) : Node :=
  { node with name := renamed node, formerName := some node.givenName }

/-- The node under the name that is tried after `k` others. -/
def Node.under (node : Node) (k : Nat) : Node :=
  { node with
    name := node.tried k
    formerName := if k = 0 then node.formerName else some node.givenName }

namespace Node
variable (node : Node)

theorem goOn_tried (k : Nat) : node.goOn.tried k = node.tried (k + 1) := by
  induction k with
  | zero => rfl
  | succ k ih =>
    rw [tried, ih, tried.eq_2 node (k + 1)]
    rfl

theorem goOn_under (k : Nat) : node.goOn.under k = node.under (k + 1) := by
  have given : node.goOn.givenName = node.givenName := rfl
  rw [under, goOn_tried, given, under, if_neg (Nat.succ_ne_zero k)]
  split_ifs <;> rfl

theorem under_zero : node.under 0 = node := rfl

theorem precedes_tried {i j : Nat} (before : i < j) : Precedes (node.tried i) (node.tried j) := by
  induction j, before using Nat.le_induction with
  | base => exact precedes_renamed { node with name := node.tried i }
  | succ j _ ih => exact ih.trans (precedes_renamed { node with name := node.tried j })

theorem tried_injective : Function.Injective node.tried := by
  intro i j same
  rcases lt_trichotomy i j with before | equal | after
  · exact absurd same (node.precedes_tried before).ne
  · exact equal
  · exact absurd same.symm (node.precedes_tried after).ne

end Node

/-- What is reported when the node passes over the name of another one. -/
def Node.remark (node taken : Node) : String :=
  "name already taken by " ++ taken.key ++ ", renamed to " ++ renamed node

/-- Search for a name, from a graph and a node with a name to try. It passes over as many names as
the number says. -/
inductive NameSearch : Graph → Node → Nat → NodeId × Graph → Prop
  | free {g : Graph} {node : Node} (none : g.liveByName node.name = none) :
      NameSearch g node 0 (g.push node)
  | supplants {g : Graph} {node taken : Node} {id : NodeId}
      (found : g.liveByName node.name = some id) (there : g.nodes[id]? = some taken)
      (union : sameUnion node.shape taken.shape = true) (better : taken.score < node.score) :
      NameSearch g node 0 (g.supplant id node)
  | yields {g : Graph} {node taken : Node} {id : NodeId}
      (found : g.liveByName node.name = some id) (there : g.nodes[id]? = some taken)
      (union : sameUnion node.shape taken.shape = true) (worse : ¬ taken.score < node.score) :
      NameSearch g node 0 (id, { g with keys := g.keys.insert node.key id })
  | goesOn {g : Graph} {node taken : Node} {id : NodeId} {k : Nat} {outcome : NodeId × Graph}
      (found : g.liveByName node.name = some id) (there : g.nodes[id]? = some taken)
      (other : sameUnion node.shape taken.shape = false)
      (later : NameSearch (g.report .renamed node.name (node.remark taken)) node.goOn k outcome) :
      NameSearch g node (k + 1) outcome

/-- A live node has the name; `union` tells whether it is a base of the same class unions. -/
def Meets (g : Graph) (node : Node) (name : String) (union : Bool) : Prop :=
  ∃ id taken, g.liveByName name = some id ∧ g.nodes[id]? = some taken ∧
    sameUnion node.shape taken.shape = union

theorem meets_of_liveByName {g : Graph} {name : String} {id : NodeId}
    (found : g.liveByName name = some id) (node : Node) : ∃ union, g.Meets node name union := by
  obtain ⟨-, -, taken, there, -⟩ := liveByName_eq_some_iff.mp found
  exact ⟨_, id, taken, found, there, rfl⟩

theorem Meets.isSome {g : Graph} {node : Node} {name : String} {union : Bool}
    (meets : g.Meets node name union) : (g.liveByName name).isSome = true := by
  obtain ⟨id, -, found, -⟩ := meets
  rw [found, Option.isSome_some]

theorem Meets.unique {g : Graph} {node : Node} {name : String} {union union' : Bool}
    (meets : g.Meets node name union) (meets' : g.Meets node name union') : union = union' := by
  obtain ⟨id, taken, found, there, rfl⟩ := meets
  obtain ⟨id', taken', found', there', rfl⟩ := meets'
  obtain rfl := Option.some.inj (found.symm.trans found')
  obtain rfl := Option.some.inj (there.symm.trans there')
  rfl

namespace NameSearch
variable {g : Graph} {node : Node} {k : Nat} {outcome : NodeId × Graph}

theorem settle_eq (search : NameSearch g node k outcome) {steps : Nat} (enough : k < steps) :
    settle steps g node = outcome := by
  induction search generalizing steps with
  | free none =>
    obtain ⟨steps, rfl⟩ := Nat.exists_eq_add_one.mpr enough
    rw [settle, none]
  | supplants found there union better =>
    obtain ⟨steps, rfl⟩ := Nat.exists_eq_add_one.mpr enough
    rw [settle, found]
    dsimp only
    rw [there]
    dsimp only
    rw [if_pos union, if_pos better]
  | yields found there union worse =>
    obtain ⟨steps, rfl⟩ := Nat.exists_eq_add_one.mpr enough
    rw [settle, found]
    dsimp only
    rw [there]
    dsimp only
    rw [if_pos union, if_neg worse]
  | goesOn found there other _ ih =>
    obtain ⟨steps, rfl⟩ := Nat.exists_eq_add_one.mpr (Nat.zero_lt_of_lt enough)
    rw [settle, found]
    dsimp only
    rw [there]
    dsimp only
    rw [other, if_neg Bool.false_ne_true]
    exact ih (Nat.lt_of_succ_lt_succ enough)

/-- Where a search ends: at a base of the same class unions, or at a free name, under which the node
is appended, with a finding for every name that was passed over. -/
theorem ends (search : NameSearch g node k outcome) :
    (∀ j < k, g.Meets node (node.tried j) false) ∧
      (g.Meets node (node.tried k) true ∨ g.liveByName (node.tried k) = none ∧
        ∃ more : List Finding, more.length = k ∧
          outcome = ({ g with findings := g.findings ++ more } : Graph).push (node.under k)) := by
  induction search with
  | @free g node none =>
    refine ⟨fun j before => absurd before (Nat.not_lt_zero j), .inr ⟨none, [], rfl, ?_⟩⟩
    rw [List.append_nil, Node.under_zero]
  | supplants found there union _ =>
    exact ⟨fun j before => absurd before (Nat.not_lt_zero j), .inl ⟨_, _, found, there, union⟩⟩
  | yields found there union _ =>
    exact ⟨fun j before => absurd before (Nat.not_lt_zero j), .inl ⟨_, _, found, there, union⟩⟩
  | @goesOn g node taken id k outcome found there other later ih =>
    obtain ⟨passed, ended⟩ := ih
    rw [node.goOn_tried, node.goOn_under] at ended
    refine ⟨fun j before => ?_, ended.imp (fun meets => meets) fun free => ⟨free.1, ?_⟩⟩
    · cases j with
      | zero => exact ⟨_, _, found, there, other⟩
      | succ j =>
        rw [← node.goOn_tried]
        exact passed j (Nat.lt_of_succ_lt_succ before)
    · obtain ⟨more, length, done⟩ := free.2
      refine ⟨⟨.renamed, node.name, node.remark taken⟩ :: more, congrArg Nat.succ length, ?_⟩
      simpa only [report, List.append_assoc, List.singleton_append] using done

theorem unique (search : NameSearch g node k outcome) {k' : Nat} {outcome' : NodeId × Graph}
    (search' : NameSearch g node k' outcome') : k' = k ∧ outcome' = outcome := by
  obtain ⟨passed, ended⟩ := search.ends
  obtain ⟨passed', ended'⟩ := search'.ends
  -- The search that went further would have passed over the name at which the other one ended.
  have first {i j : Nat} (passed : ∀ l < j, g.Meets node (node.tried l) false)
      (ended : g.Meets node (node.tried i) true ∨ g.liveByName (node.tried i) = none) : j ≤ i := by
    by_contra further
    have meets := passed i (Nat.lt_of_not_le further)
    rcases ended with union | free
    · exact Bool.false_ne_true (meets.unique union)
    · have isSome := meets.isSome
      rw [free] at isSome
      cases isSome
  have same : k' = k := le_antisymm (first passed' (ended.imp_right And.left))
    (first passed (ended'.imp_right And.left))
  refine ⟨same, ?_⟩
  rw [← search.settle_eq (Nat.lt_succ_self k), ← search'.settle_eq (Nat.lt_succ_self k'), same]

end NameSearch

/-- Names that are taken are in the table, and no name is tried twice. -/
theorem le_size_of_taken {g : Graph} {node : Node} {n : Nat}
    (taken : ∀ j < n, (g.liveByName (node.tried j)).isSome = true) : n ≤ g.names.size := by
  have distinct : ((List.range n).map node.tried).Nodup := List.nodup_range.map node.tried_injective
  have listed : (List.range n).map node.tried ⊆ g.names.keys := by
    intro name member
    obtain ⟨j, within, rfl⟩ := List.mem_map.mp member
    obtain ⟨id, found⟩ := Option.isSome_iff_exists.mp (taken j (List.mem_range.mp within))
    exact (g.names.contains_iff_mem_keys _).mp
      ((g.names.contains_iff_get? _).mpr ⟨id, (liveByName_eq_some_iff.mp found).1⟩)
  have fewer := (List.subperm_of_subset distinct listed).length_le
  rwa [List.length_map, List.length_range, Table.length_keys] at fewer

theorem exists_free (g : Graph) (node : Node) : ∃ k, g.liveByName (node.tried k) = none := by
  by_contra taken
  rw [not_exists] at taken
  have more : g.names.size + 1 ≤ g.names.size :=
    le_size_of_taken fun j _ => Option.isSome_iff_ne_none.mpr (taken j)
  exact Nat.not_succ_le_self _ more

theorem exists_search_of_passed {g : Graph} {node : Node} {k : Nat}
    (passed : ∀ j < k, g.Meets node (node.tried j) false)
    (ended : g.liveByName (node.tried k) = none ∨ g.Meets node (node.tried k) true) :
    ∃ outcome, NameSearch g node k outcome := by
  induction k generalizing g node with
  | zero =>
    rcases ended with free | ⟨id, taken, found, there, union⟩
    · exact ⟨_, .free free⟩
    · by_cases better : taken.score < node.score
      · exact ⟨_, .supplants found there union better⟩
      · exact ⟨_, .yields found there union better⟩
  | succ k ih =>
    obtain ⟨id, taken, found, there, other⟩ := passed 0 (Nat.succ_pos k)
    have passed' (j : Nat) (before : j < k) : g.Meets node (node.goOn.tried j) false := by
      rw [node.goOn_tried]
      exact passed (j + 1) (Nat.succ_lt_succ before)
    rw [← node.goOn_tried] at ended
    obtain ⟨outcome, later⟩ :=
      @ih (g.report .renamed node.name (node.remark taken)) node.goOn passed' ended
    exact ⟨outcome, .goesOn found there other later⟩

theorem exists_search (g : Graph) (node : Node) : ∃ k outcome, NameSearch g node k outcome := by
  classical
  have stops : ∃ k, ¬ g.Meets node (node.tried k) false := by
    obtain ⟨k, free⟩ := g.exists_free node
    refine ⟨k, fun meets => ?_⟩
    rw [← Option.not_isSome_iff_eq_none] at free
    exact free meets.isSome
  refine ⟨Nat.find stops, exists_search_of_passed
    (fun j before => not_not.mp (Nat.find_min stops before)) ?_⟩
  cases found : g.liveByName (node.tried (Nat.find stops)) with
  | none => exact .inl rfl
  | some id =>
    obtain ⟨union, meets⟩ := meets_of_liveByName found node
    cases union with
    | false => exact absurd meets (Nat.find_spec stops)
    | true => exact .inr meets

theorem identify_frame {g g₁ : Graph} {node keyed : Node}
    (identified : g.identify node = .ok (keyed, g₁)) :
    keyed = { node with key := keyed.key, origin := keyed.origin } ∧
      g₁ = { g with issued := g₁.issued } := by
  rw [identify] at identified
  split at identified
  · cases identified
    exact ⟨rfl, rfl⟩
  · cases identified
    exact ⟨rfl, rfl⟩
  · split_ifs at identified
    split at identified <;> cases identified <;> exact ⟨rfl, rfl⟩

theorem Node.tried_identity (node : Node) (key : String) (origin : Option String) (k : Nat) :
    Node.tried { node with key := key, origin := origin } k = node.tried k := by
  induction k with
  | zero => rfl
  | succ k ih =>
    rw [tried, ih, tried.eq_2 node k]
    rfl

/-- A node that is no primitive and whose key is new: the names that are tried for it are all
different, the search for one of them ends in one way only, with at most one step for each name in
the table, and registration ends like this. Unless the search meets a base of the same class unions,
the node is appended under the first of these names that no live node has. -/
theorem register_searches {g g₁ : Graph} {node keyed : Node}
    (identified : g.identify node = .ok (keyed, g₁)) (new : g.keys.get? keyed.key = none)
    (other : node.shape.isPrimitive = false) :
    Function.Injective node.tried ∧
    ∃ k outcome, g.register node = .ok outcome ∧
      (∀ k' outcome', NameSearch g₁ keyed k' outcome' ↔ k' = k ∧ outcome' = outcome) ∧
      k ≤ g.names.size ∧
      (∀ j < k, (g.liveByName (node.tried j)).isSome = true) ∧
      (g.Meets node (node.tried k) true ∧ k < g.names.size ∨
        g.liveByName (node.tried k) = none ∧ ∃ more : List Finding, more.length = k ∧
          outcome = ({ g₁ with findings := g.findings ++ more } : Graph).push (keyed.under k)) := by
  obtain ⟨isKeyed, isIssued⟩ := identify_frame identified
  have tried (k : Nat) : keyed.tried k = node.tried k := by
    rw [isKeyed]
    exact node.tried_identity keyed.key keyed.origin k
  have shape : keyed.shape = node.shape := by rw [isKeyed]
  have live (name : String) : g₁.liveByName name = g.liveByName name := by
    rw [isIssued]
    rfl
  obtain ⟨k, outcome, search⟩ := g₁.exists_search keyed
  obtain ⟨passed, ended⟩ := search.ends
  simp only [tried, live] at passed ended
  have taken (j : Nat) (before : j < k) : (g.liveByName (node.tried j)).isSome = true := by
    rw [← live]
    exact (passed j before).isSome
  have within : k ≤ g.names.size := le_size_of_taken taken
  refine ⟨node.tried_injective, k, outcome, ?_, fun k' outcome' => ⟨search.unique, ?_⟩, within,
    taken, ?_⟩
  · have names : g₁.names = g.names := by rw [isIssued]
    have fresh : g₁.keys.get? keyed.key = none := by
      rw [isIssued]
      exact new
    have settled := search.settle_eq (Nat.lt_succ_of_le within)
    rw [← names] at settled
    rw [register, identified]
    simp only [bind, Except.bind]
    rw [fresh, shape, other, ← settled]
    rfl
  · rintro ⟨rfl, rfl⟩
    exact search
  · refine ended.imp (fun meets => ?_) (fun free => ?_)
    · obtain ⟨id, base, found, there, union⟩ := meets
      rw [live] at found
      rw [isIssued] at there
      rw [shape] at union
      have taken' (j : Nat) (before : j < k + 1) : (g.liveByName (node.tried j)).isSome = true := by
        rcases Nat.lt_succ_iff_lt_or_eq.mp before with earlier | rfl
        · exact taken j earlier
        · rw [found, Option.isSome_some]
      exact ⟨⟨id, base, found, there, union⟩, le_size_of_taken taken'⟩
    · have findings : g₁.findings = g.findings := by rw [isIssued]
      rwa [findings] at free

/-- Two nodes of one name, the second of them under a number. -/
def namesakes : Graph where
  nodes := #[{ name := "User", key := "User#a", origin := some "a", shape := .record [] [] },
    { name := "User1", key := "User#b", origin := some "b", shape := .record [] [] }]
  keys := ⟨[("User#b", 1), ("User#a", 0)]⟩
  names := ⟨[("User1", 1), ("User", 0)]⟩

/-- A third one passes over two names. -/
theorem register_searches_namesakes :
    ∃ g' placed, namesakes.register
        { name := "User", origin := some "c", shape := .record [] [] } = .ok (2, g') ∧
      g'.nodes = namesakes.nodes.push placed ∧ placed.name = "User2" ∧
        placed.formerName = some "User" ∧ g'.findings.length = 2 := by
  let node : Node := { name := "User", origin := some "c", shape := .record [] [] }
  let keyed : Node := { node with key := "User" ++ "#" ++ "c" }
  have identified : namesakes.identify node = .ok (keyed, namesakes) := if_neg (by decide)
  have new : namesakes.keys.get? keyed.key = none := by decide +kernel
  have taken : (namesakes.liveByName (node.tried 0)).isSome = true ∧
      (namesakes.liveByName (node.tried 1)).isSome = true := by decide +kernel
  have free : namesakes.liveByName (node.tried 2) = none := by decide +kernel
  obtain ⟨-, k, outcome, done, -, -, before, ended⟩ := register_searches identified new rfl
  rcases ended with ⟨⟨id, base, -, -, union⟩, -⟩ | ⟨none, more, length, rfl⟩
  · cases union
  · obtain rfl : k = 2 := by
      rcases lt_trichotomy k 2 with fewer | two | further
      · rw [← Option.not_isSome_iff_eq_none] at none
        have : k = 0 ∨ k = 1 := by omega
        rcases this with rfl | rfl
        · exact absurd taken.1 none
        · exact absurd taken.2 none
      · exact two
      · have isSome := before 2 further
        rw [free] at isSome
        cases isSome
    exact ⟨_, keyed.under 2, done, rfl, by decide +kernel, rfl, length⟩

end TypeLoom.Graph
