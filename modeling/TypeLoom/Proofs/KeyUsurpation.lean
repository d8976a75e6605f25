import TypeLoom.Proofs.IdentityKeys

/-! Identity keys over time. A primitive type, the constants and a replacement come in without a
look for their key; where a live node has it, that node can no longer be found by it. Main result:
keys are unique and lead to their nodes all the time exactly if no operation usurps a key. -/
namespace TypeLoom.Graph

theorem addConstant_of_known {g : Graph} {id : NodeId} (known : g.constants = some id)
    (constant : Constant) :
    (g.addConstant constant).2 = g.modifyShape id (Shape.addConstant · constant) := by
  rw [Graph.addConstant, constantsNode, known, modifyShape]

namespace Operation

/-- The operation brings in a node under the key of a live one without asking, or changes the key of
a node to one that it is not known by. -/
def Usurps (g : Graph) : Operation → Prop
  | primitive kind => g.primitives.get? kind = none ∧ ∃ id, g.HasKey id kind.label
  | addConstant _ => g.constants = none ∧ ∃ id, g.HasKey id constantsKey
  | replace key node => ∃ old keyed g', g.keys.get? key = some old ∧
      g.identify node = .ok (keyed, g') ∧ ∃ id, id ≠ g.resolve old ∧ g.HasKey id keyed.key
  | modify id change => ∃ node, g.nodes[g.resolve id]? = some node ∧
      g.findByKey (change node).key ≠ some (g.resolve id)
  | _ => False

theorem supplant_of_not_isLive {g : Graph} (sound : g.Sound) {old : NodeId}
    (dead : ¬ g.isLive (g.resolve old) = true) (node : Node) :
    g.supplant (g.resolve old) node = g.push node := by
  have outside : g.nodes[g.resolve old]? = none := by
    rw [Array.getElem?_eq_none_iff]
    by_contra inside
    exact dead ((isLive_iff g _).mpr ⟨Nat.lt_of_not_le inside, sound.resolve_end old⟩)
  rw [supplant, outside]

/-- Operations that have nothing to do with keys. -/
def isSilent : Operation → Bool
  | addProperty .. | addMember .. | addParameter .. | findUnion .. | changeFindings _ | digest _
  | forgetDigests | prune => true
  | _ => false

theorem sameKeys_of_isSilent (hash : Hash) (g : Graph) {op : Operation}
    (silent : op.isSilent = true) : SameKeys g (op.run hash g) := by
  cases op with
  | addProperty id property => exact modifyShape_sameKeys g id (Shape.addProperty · property)
  | addMember id member => exact modifyShape_sameKeys g id (Shape.addMember · member)
  | addParameter id parameter => exact modifyShape_sameKeys g id (Shape.addParameter · parameter)
  | findUnion member hint => exact findUnion_sameKeys g member hint
  | digest id => exact digest_sameKeys hash g id
  | prune => exact prune_sameKeys g
  | changeFindings _ | forgetDigests => exact ⟨rfl, rfl, rfl, rfl, rfl⟩
  | _ => cases silent

section step
variable {g : Graph} (sound : g.Sound) (wellKeyed : g.WellKeyed)
include sound wellKeyed

theorem primitive_wellKeyed_iff (kind : Primitive) :
    (g.primitive kind).2.WellKeyed ↔ ¬ Usurps g (.primitive kind) := by
  rw [Usurps, Graph.primitive]
  cases known : g.primitives.get? kind with
  | some id => simp [wellKeyed]
  | none =>
    refine (wellKeyed_withTables (g.push (primitiveNode kind)).2 _ _ _).trans ?_
    rw [push_wellKeyed_iff sound wellKeyed, eq_self, true_and, not_exists]
    rfl

theorem addConstant_wellKeyed_iff (constant : Constant) :
    (g.addConstant constant).2.WellKeyed ↔ ¬ Usurps g (.addConstant constant) := by
  rw [Usurps]
  cases known : g.constants with
  | some id =>
    rw [addConstant_of_known known]
    exact iff_of_true ((modifyShape_sameKeys g id _).wellKeyed wellKeyed) (by simp)
  | none =>
    rw [addConstant_first known]
    refine (wellKeyed_withTables (g.push (constantsOf constant)).2 _ _ _).trans ?_
    rw [push_wellKeyed_iff sound wellKeyed, eq_self, true_and, not_exists]
    rfl

theorem replace_wellKeyed_iff (key : String) (node : Node) :
    (outcome g (g.replace key node)).WellKeyed ↔ ¬ Usurps g (.replace key node) := by
  rw [Usurps, Graph.replace]
  cases hit : g.keys.get? key with
  | none =>
    refine iff_of_true wellKeyed ?_
    simp
  | some old =>
    cases identified : g.identify node with
    | error e =>
      refine iff_of_true wellKeyed ?_
      simp
    | ok pair =>
      obtain ⟨keyed, g₁⟩ := pair
      have same := identify_sameKeys identified
      have sound₁ := (identify_spec identified).2.toSameShapes.sound sound
      have wellKeyed₁ := same.wellKeyed wellKeyed
      have resolve : g₁.resolve old = g.resolve old := by
        rw [Graph.resolve, Graph.resolve, same.redirects]
      have usurps : (¬ ∃ old' keyed' g', some old = some old' ∧
          (Except.ok (keyed, g₁) : Except MissingIdentity (Node × Graph)) = .ok (keyed', g') ∧
            ∃ id, id ≠ g.resolve old' ∧ g.HasKey id keyed'.key) ↔
          ∀ id, id ≠ g₁.resolve old → ¬ g₁.HasKey id keyed.key := by
        rw [resolve]
        simp [hasKey_congr same.nodes same.redirects]
      rw [usurps]
      change (g₁.supplant (g₁.resolve old) keyed).2.WellKeyed ↔ _
      by_cases live : g₁.isLive (g₁.resolve old) = true
      · exact supplant_wellKeyed_iff live keyed sound₁ wellKeyed₁
      · rw [supplant_of_not_isLive sound₁ live, push_wellKeyed_iff sound₁ wellKeyed₁]
        refine forall_congr' fun id => ⟨fun free _ => free, fun free has => free ?_ has⟩
        rintro rfl
        exact live has.1

theorem modify_wellKeyed_iff (id : NodeId) (change : Node → Node) :
    (g.modifyNode (g.resolve id) change).touch.WellKeyed ↔ ¬ Usurps g (.modify id change) := by
  have live {node : Node} (there : g.nodes[g.resolve id]? = some node) :
      g.isLive (g.resolve id) = true :=
    (isLive_iff g _).mpr ⟨(Array.getElem?_eq_some_iff.mp there).1, sound.resolve_end id⟩
  have hasKey_iff (other : NodeId) (key : String) :
      (g.modifyNode (g.resolve id) change).touch.HasKey other key ↔ g.isLive other = true ∧
        (if g.resolve id = other then (g.nodes[other]?).map change else g.nodes[other]?).map
          Node.key = some key := by
    simp [HasKey, isLive, modifyNode, touch, Array.getElem?_modify]
  have findByKey (key : String) :
      (g.modifyNode (g.resolve id) change).touch.findByKey key = g.findByKey key := rfl
  rw [Usurps]
  push Not
  constructor
  · intro later node there
    refine (findByKey _).symm.trans (later.found ((hasKey_iff _ _).mpr ⟨live there, ?_⟩))
    rw [if_pos rfl, there]
    rfl
  · intro known
    refine wellKeyed_of_found fun other key has => ?_
    obtain ⟨isLive, has⟩ := (hasKey_iff other key).mp has
    rw [findByKey]
    split_ifs at has with same
    · subst same
      simp only [Option.map_map, Option.map_eq_some_iff] at has
      obtain ⟨node, there, rfl⟩ := has
      exact known node there
    · exact wellKeyed.found ⟨isLive, has⟩

theorem register_step_wellKeyed (node : Node) : (outcome g (g.register node)).WellKeyed := by
  cases done : g.register node with
  | error e => exact wellKeyed
  | ok pair => exact register_wellKeyed sound wellKeyed done

theorem unionBase_wellKeyed (arity : Nat) : (outcome g (g.unionBase arity)).WellKeyed := by
  cases done : g.unionBase arity with
  | error e => exact wellKeyed
  | ok pair =>
    obtain ⟨id, g'⟩ := pair
    rw [Graph.unionBase] at done
    split at done
    · cases done
      exact wellKeyed
    · obtain ⟨⟨base, g₁⟩, registered, done⟩ := ok_of_bind done
      cases done
      exact (wellKeyed_withTables g₁ _ _ _).mpr (register_wellKeyed sound wellKeyed registered)

theorem run_wellKeyed_iff (hash : Hash) (op : Operation) :
    (op.run hash g).WellKeyed ↔ ¬ Usurps g op := by
  cases op with
  | primitive kind => exact primitive_wellKeyed_iff sound wellKeyed kind
  | addConstant constant => exact addConstant_wellKeyed_iff sound wellKeyed constant
  | replace key node => exact replace_wellKeyed_iff sound wellKeyed key node
  | modify id change => exact modify_wellKeyed_iff sound wellKeyed id change
  | register node => exact iff_of_true (register_step_wellKeyed sound wellKeyed node) id
  | unionBase arity => exact iff_of_true (unionBase_wellKeyed sound wellKeyed arity) id
  | consolidate => exact iff_of_true (consolidate_wellKeyed sound wellKeyed) id
  | _ => exact iff_of_true (SameKeys.wellKeyed (sameKeys_of_isSilent hash g (by rfl)) wellKeyed) id

end step

end Operation

/-- Where a node has the key of a primitive type or of the constants, the tables know of one. -/
structure Tabled (g : Graph) : Prop where
  primitives : ∀ kind : Primitive, kind.label ∈ g.nodes.map Node.key →
    (g.primitives.get? kind).isSome = true
  constants : constantsKey ∈ g.nodes.map Node.key → g.constants.isSome = true

theorem empty_tabled : empty.Tabled := ⟨by simp [empty], by simp [empty]⟩

/-- Every key of a node was there before, or is this one. -/
structure Brings (g : Graph) (key : String) (g' : Graph) : Prop where
  nodes : ∀ other ∈ g'.nodes.map Node.key, other ∈ g.nodes.map Node.key ∨ other = key
  fixed : SameFixed g g'

theorem separator_not_mem_label (kind : Primitive) : '#' ∉ kind.label.toList := by
  cases kind <;> decide

theorem separator_not_mem_constantsKey : '#' ∉ constantsKey.toList := by decide

theorem Brings.tabled {g g' : Graph} {key : String} (brings : Brings g key g')
    (separated : '#' ∈ key.toList) (tabled : g.Tabled) : g'.Tabled where
  primitives kind mem := by
    rw [brings.fixed.primitives]
    obtain old | rfl := brings.nodes _ mem
    · exact tabled.primitives kind old
    · exact absurd separated (separator_not_mem_label kind)
  constants mem := by
    rw [brings.fixed.constants]
    obtain old | same := brings.nodes _ mem
    · exact tabled.constants old
    · rw [← same] at separated
      exact absurd separated separator_not_mem_constantsKey

theorem Tabled.of_same {g g' : Graph} (tabled : g.Tabled)
    (nodes : g'.nodes.map Node.key = g.nodes.map Node.key)
    (fixed : SameFixed g g') : g'.Tabled where
  primitives kind mem := by
    rw [fixed.primitives]
    exact tabled.primitives kind (nodes ▸ mem)
  constants mem := by
    rw [fixed.constants]
    exact tabled.constants (nodes ▸ mem)

theorem Tabled.of_sameKeys {g g' : Graph} (tabled : g.Tabled) (same : SameKeys g g') : g'.Tabled :=
  tabled.of_same same.nodes same.fixed

theorem push_brings {g g' : Graph} {node : Node} (nodes : g'.nodes = g.nodes.push node)
    (fixed : SameFixed g g') : Brings g node.key g' where
  nodes other mem := by
    rw [nodes, Array.map_push] at mem
    exact Array.mem_push.mp mem
  fixed := fixed

theorem settle_brings (steps : Nat) (g : Graph) (node : Node) :
    Brings g node.key (settle steps g node).2 := by
  induction steps generalizing g node with
  | zero => exact push_brings rfl ⟨rfl, rfl⟩
  | succ steps ih =>
    rw [settle]
    cases taken : g.liveByName node.name with
    | none => exact push_brings rfl ⟨rfl, rfl⟩
    | some other =>
      obtain ⟨-, live, before, found, -⟩ := liveByName_eq_some_iff.mp taken
      dsimp only
      rw [found]
      dsimp only
      split_ifs with union better
      · obtain ⟨-, -, nodes, -, -⟩ := supplant_tables live node
        refine push_brings nodes ?_
        have freed := (freeName_sameKeys g other before.name).fixed
        rw [supplant, found]
        exact ⟨freed.primitives, freed.constants⟩
      · exact ⟨fun _ => .inl, rfl, rfl⟩
      · have later := ih (g.report .renamed node.name
          ("name already taken by " ++ before.key ++ ", renamed to " ++ renamed node)) { node with
            name := renamed node, formerName := some (node.formerName.getD node.name) }
        exact ⟨later.nodes, later.fixed.primitives, later.fixed.constants⟩

theorem register_tabled {g g' : Graph} {node : Node} {id : NodeId}
    (named : node.shape.isNamed = true) (done : g.register node = .ok (id, g'))
    (tabled : g.Tabled) :
    g'.Tabled := by
  obtain ⟨⟨keyed, g₁⟩, identified, done⟩ := ok_of_bind done
  have tabled₁ := tabled.of_sameKeys (identify_sameKeys identified)
  have separated : '#' ∈ keyed.key.toList := by
    cases (identify_cases named identified).2 with
    | given own => simp
    | issued without => simp [issuedKey]
  dsimp only at done
  split at done
  · cases done
    exact tabled₁
  · split_ifs at done
    · cases done
      exact Brings.tabled (push_brings rfl ⟨rfl, rfl⟩) separated tabled₁
    · have settled := settle_brings (g₁.names.size + 1) g₁ keyed
      rw [Except.ok.inj done] at settled
      exact settled.tabled separated tabled₁

theorem mergePass_fixed (hash : Hash) (g : Graph) : SameFixed g (g.mergePass hash).2 := by
  have merged := (compared_sameKeys hash g).fixed.trans
    (mergeBuckets_rekeys (compared hash g) (groups hash g)).fixed
  rw [mergePass_eq]
  dsimp only
  split_ifs
  · exact merged
  · exact merged.trans (canonicalize_sameKeys _).fixed

theorem Passes.fixed {hash : Hash} {g g' : Graph} {count : Nat} (passes : Passes hash g count g') :
    SameFixed g g' := by
  induction passes with
  | last none => exact mergePass_fixed hash _
  | more some rest ih => exact (mergePass_fixed hash _).trans ih

theorem consolidate_tabled {hash : Hash} {g : Graph} (sound : g.Sound) (tabled : g.Tabled) :
    (g.consolidate hash).2.Tabled := by
  refine tabled.of_same (consolidate_map key_lasting hash g) ?_
  obtain ⟨before, -, -, passes, result⟩ := consolidate_last hash sound
  rw [result]
  exact passes.fixed.trans (recordEdges_sameKeys _).fixed

theorem primitive_tabled {g : Graph} (tabled : g.Tabled) (kind : Primitive) :
    (g.primitive kind).2.Tabled := by
  rw [primitive]
  split
  · exact tabled
  · refine ⟨fun other mem => ?_, fun mem => ?_⟩
    · have mem : other.label ∈ (g.nodes.push (primitiveNode kind)).map Node.key := mem
      rw [Array.map_push, Array.mem_push] at mem
      change ((g.primitives.insert kind g.nodes.size).get? other).isSome = true
      rw [Table.get?_insert]
      obtain old | same := mem
      · split_ifs
        · rfl
        · exact tabled.primitives other old
      · rw [if_pos (label_inj same)]
        rfl
    · have mem : constantsKey ∈ (g.nodes.push (primitiveNode kind)).map Node.key := mem
      rw [Array.map_push, Array.mem_push] at mem
      obtain old | same := mem
      · exact tabled.constants old
      · have other : constantsKey ≠ kind.label := by cases kind <;> decide
        exact absurd same other

theorem addConstant_tabled {g : Graph} (tabled : g.Tabled) (constant : Constant) :
    (g.addConstant constant).2.Tabled := by
  cases known : g.constants with
  | some id =>
    rw [addConstant_of_known known]
    exact tabled.of_sameKeys (modifyShape_sameKeys g id _)
  | none =>
    rw [addConstant_first known]
    refine ⟨fun kind mem => ?_, fun _ => rfl⟩
    have mem : kind.label ∈ (g.nodes.push (constantsOf constant)).map Node.key := mem
    rw [Array.map_push, Array.mem_push] at mem
    obtain old | same := mem
    · exact tabled.primitives kind old
    · have other : kind.label ≠ constantsKey := by cases kind <;> decide
      exact absurd same other

theorem unionBase_tabled {g g' : Graph} (tabled : g.Tabled) {arity : Nat} {id : NodeId}
    (done : g.unionBase arity = .ok (id, g')) : g'.Tabled := by
  rw [unionBase] at done
  split at done
  · cases done
    exact tabled
  · obtain ⟨⟨base, g₁⟩, registered, done⟩ := ok_of_bind done
    cases done
    exact (register_tabled rfl registered tabled).of_same rfl ⟨rfl, rfl⟩

namespace Operation

/-- No replacement, no node of a primitive type or of constants that is registered as such, and no
change of a key. -/
def Plain : Operation → Prop
  | register node => node.shape.isNamed = true
  | replace _ _ => False
  | modify _ change => ∀ node, (change node).key = node.key
  | _ => True

theorem outcome_tabled {α : Type} {g : Graph} (tabled : g.Tabled)
    (result : Except MissingIdentity (α × Graph))
    (done : ∀ {x g'}, result = .ok (x, g') → g'.Tabled) : (outcome g result).Tabled := by
  cases result with
  | error e => exact tabled
  | ok pair => exact done rfl

section plain
variable {op : Operation} (plain : op.Plain) {g : Graph} (sound : g.Sound)
include plain sound

theorem Plain.tabled (hash : Hash) (tabled : g.Tabled) : (op.run hash g).Tabled := by
  cases op with
  | primitive kind => exact primitive_tabled tabled kind
  | addConstant constant => exact addConstant_tabled tabled constant
  | replace key node => cases plain
  | modify id change => exact tabled.of_same (map_modifyNode g (g.resolve id) plain) ⟨rfl, rfl⟩
  | register node => exact outcome_tabled tabled _ fun done => register_tabled plain done tabled
  | unionBase arity => exact outcome_tabled tabled _ fun done => unionBase_tabled tabled done
  | consolidate => exact consolidate_tabled sound tabled
  | _ => exact .of_sameKeys tabled (sameKeys_of_isSilent hash g (by rfl))

theorem Plain.not_usurps (wellKeyed : g.WellKeyed) (tabled : g.Tabled) : ¬ Usurps g op := by
  have listed {id : NodeId} {key : String} (has : g.HasKey id key) :
      key ∈ g.nodes.map Node.key := by
    obtain ⟨node, there, rfl⟩ := Option.map_eq_some_iff.mp has.2
    exact Array.mem_map_of_mem (Array.mem_of_getElem? there)
  cases op with
  | primitive kind =>
    rintro ⟨absent, id, has⟩
    have known := tabled.primitives kind (listed has)
    rw [absent] at known
    cases known
  | addConstant constant =>
    rintro ⟨absent, id, has⟩
    have known := tabled.constants (listed has)
    rw [absent] at known
    cases known
  | replace key node => cases plain
  | modify id change =>
    rintro ⟨node, there, lost⟩
    have inside := (Array.getElem?_eq_some_iff.mp there).1
    have has : g.HasKey (g.resolve id) node.key :=
      ⟨(isLive_iff g _).mpr ⟨inside, sound.resolve_end id⟩, by rw [there, Option.map_some]⟩
    rw [plain node] at lost
    exact lost (wellKeyed.found has)
  | _ => exact id

end plain

theorem runAll_append (hash : Hash) (g : Graph) (first second : List Operation) :
    runAll hash g (first ++ second) = runAll hash (runAll hash g first) second := by
  induction first generalizing g with
  | nil => rfl
  | cons op rest ih => exact ih _

theorem runAll_plain (hash : Hash) {g : Graph} {ops : List Operation} (plain : ∀ op ∈ ops, op.Plain)
    (sound : g.Sound) (wellKeyed : g.WellKeyed) (tabled : g.Tabled) :
    (runAll hash g ops).WellKeyed := by
  induction ops generalizing g with
  | nil => exact wellKeyed
  | cons op rest ih =>
    have first := plain op List.mem_cons_self
    have kept := (run_wellKeyed_iff sound wellKeyed hash op).mpr
      (first.not_usurps sound wellKeyed tabled)
    exact ih (fun other mem => plain other (List.mem_cons_of_mem op mem))
      ((run_keeps hash g op).sound sound) kept (first.tabled sound hash tabled)

end Operation

open Operation in
/-- Starting from the empty graph, identity keys are unique and lead to their nodes at every point
of a run exactly if no operation of it usurps a key; without replacements, with nodes of named
shapes registered only, and with no change of a key, none does. -/
theorem wellKeyed_runAll_iff (hash : Hash) (ops : List Operation) :
    ((∀ before after, ops = before ++ after → (runAll hash .empty before).WellKeyed) ↔
      ∀ before op after, ops = before ++ op :: after → ¬ Usurps (runAll hash .empty before) op) ∧
    ((∀ op ∈ ops, op.Plain) → (runAll hash .empty ops).WellKeyed) := by
  have step (before : List Operation) (op : Operation)
      (wellKeyed : (runAll hash .empty before).WellKeyed) :
      (runAll hash .empty (before ++ [op])).WellKeyed ↔
        ¬ Usurps (runAll hash .empty before) op := by
    obtain ⟨sound, -⟩ := runAll_sound hash before empty_sound (.of_empty rfl)
    rw [runAll_append]
    exact run_wellKeyed_iff sound wellKeyed hash op
  refine ⟨⟨fun always before op after split => ?_, fun never before => ?_⟩, fun plain => ?_⟩
  · refine (step before op (always before _ split)).mp (always _ after ?_)
    rw [split, List.append_assoc, List.singleton_append]
  · induction before using List.reverseRecOn with
    | nil => exact fun _ _ => empty_wellKeyed
    | append_singleton before op ih =>
      intro after split
      rw [List.append_assoc, List.singleton_append] at split
      exact (step before op (ih _ split)).mpr (never before op after split)
  · exact runAll_plain hash plain empty_sound empty_wellKeyed empty_tabled

/-- A primitive type that was registered as a node, a node of constants likewise, and a replacement
under the key of a third node. -/
def Operation.usurping : List Operation :=
  [.register { name := "string", shape := .primitive .string }, .primitive .string,
    .register { name := "Constants", shape := .constants [] },
    .addConstant ⟨"limit", .ofNode 0, .null, none⟩,
    .register { name := "User", origin := some "a.ts", shape := .record [] [] },
    .register { name := "Account", origin := some "b.ts", shape := .record [] [] },
    .replace "Account#b.ts" { name := "User", origin := some "a.ts", shape := .record [] [] }]

open Operation in
/-- In each of the three ways two live nodes have one key, and only the later one is found by it. -/
theorem key_of_two_nodes :
    (runAll Sha256.hex .empty usurping).HasKey 0 "string" ∧
    (runAll Sha256.hex .empty usurping).HasKey 1 "string" ∧
    (runAll Sha256.hex .empty usurping).findByKey "string" = some 1 ∧
    (runAll Sha256.hex .empty usurping).HasKey 2 "__constants__" ∧
    (runAll Sha256.hex .empty usurping).HasKey 3 "__constants__" ∧
    (runAll Sha256.hex .empty usurping).findByKey "__constants__" = some 3 ∧
    (runAll Sha256.hex .empty usurping).HasKey 4 "User#a.ts" ∧
    (runAll Sha256.hex .empty usurping).HasKey 6 "User#a.ts" ∧
    (runAll Sha256.hex .empty usurping).findByKey "User#a.ts" = some 6 := by
  decide

end TypeLoom.Graph
