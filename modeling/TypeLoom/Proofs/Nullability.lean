import TypeLoom.Proofs.Provenance
import TypeLoom.Proofs.Visibility

/-! Properties that may be null. A property is optional if the object type says so or if its type
counts as nullable. That is not the same as to admit null: null in the elements of an array counts,
null behind the name of a declaration or in a union inside another one does not. -/
namespace TypeLoom

namespace Fact

/-- Types inside of which nothing is looked for. -/
def TypeExpr.isSimple : TypeExpr → Bool
  | .union _ | .array _ | .reference .. => false
  | _ => true

end Fact

namespace Ingest
open TypeLoom.Graph TypeLoom.Fact

/-- The type admits null: it is null or undefined, some arm of it does, or it is the name of a
declaration whose type does. -/
inductive AdmitsNull (c : Context) : List String → TypeExpr → Prop
  | nullish {generics : List String} {type : TypeExpr} (nullish : type.isNullish = true) :
      AdmitsNull c generics type
  | arm {generics : List String} {members : List TypeExpr} {member : TypeExpr}
      (listed : member ∈ members) (admits : AdmitsNull c generics member) :
      AdmitsNull c generics (.union members)
  | declared {generics : List String} {name : String} {origin : Option String} {place : Nat}
      {fact : Fact} {type : TypeExpr} (free : name ∉ generics)
      (refers : c.place? name origin = some place) (there : c.facts[place]? = some fact)
      (body : fact.body = .type type) (admits : AdmitsNull c fact.generics type) :
      AdmitsNull c generics (.reference name origin [])

/-- The type counts as nullable: it is null or undefined, a union with such an arm, or else a union
of nothing but a nullable type or an array of nullable elements. -/
inductive Nullable (c : Context) (generics : List String) : TypeExpr → Prop
  | nullish {type : TypeExpr} (nullish : type.isNullish = true) : Nullable c generics type
  | arm {members : List TypeExpr} {member : TypeExpr} (listed : member ∈ members)
      (nullish : member.isNullish = true) : Nullable c generics (.union members)
  | only {members : List TypeExpr} {member : TypeExpr} (only : nonNull members = [member])
      (nullable : Nullable c generics member) : Nullable c generics (.union members)
  | array {element : TypeExpr} (nullable : Nullable c generics element) :
      Nullable c generics (.array element)
  | builtin {name : String} {origin : Option String} {element : TypeExpr}
      (isArray : name ∈ arrayNames) (undeclared : c.place? name origin = none)
      (nullable : Nullable c generics element) :
      Nullable c generics (.reference name origin [element])

/-- Types for which the two are the same. -/
inductive Straight (c : Context) (generics : List String) : TypeExpr → Prop
  | simple {type : TypeExpr} (simple : type.isSimple = true) : Straight c generics type
  | arm {members : List TypeExpr} {member : TypeExpr} (listed : member ∈ members)
      (nullish : member.isNullish = true) : Straight c generics (.union members)
  | only {members : List TypeExpr} {member : TypeExpr} (only : nonNull members = [member])
      (straight : Straight c generics member) : Straight c generics (.union members)
  | several {members : List TypeExpr} (several : (nonNull members).length ≠ 1)
      (solid : ∀ member ∈ members, ¬ AdmitsNull c generics member) :
      Straight c generics (.union members)
  | array {element : TypeExpr} (solid : ¬ Nullable c generics element) :
      Straight c generics (.array element)
  | reference {name : String} {origin : Option String} {arguments : List TypeExpr}
      (solid : ¬ AdmitsNull c generics (.reference name origin arguments))
      (other : ¬ Nullable c generics (.reference name origin arguments)) :
      Straight c generics (.reference name origin arguments)

section rules
variable {c : Context} {generics : List String}

theorem nullable_of_elementTraits {arguments : List TypeExpr}
    (nullable : (elementTraits c generics arguments).nullable = true) :
    ∃ element, arguments = [element] ∧ (traits c generics element).nullable = true := by
  cases arguments with
  | nil => cases nullable
  | cons element rest =>
    cases rest with
    | nil => exact ⟨element, rfl, nullable⟩
    | cons => cases nullable

theorem nullable_of_traits {type : TypeExpr} (nullable : (traits c generics type).nullable = true) :
    Nullable c generics type := by
  induction type using TypeExpr.induction_parts with
  | step type ih =>
  cases type with
  | primitive kind =>
    rw [traits] at nullable
    exact .nullish nullable
  | union members =>
    by_cases single : (nonNull members).length = 1
    · obtain ⟨member, only⟩ := List.length_eq_one_iff.mp single
      rw [traits_of_single only, Bool.or_eq_true, List.any_eq_true] at nullable
      obtain ⟨other, listed, nullish⟩ | nullable := nullable
      · exact .arm listed nullish
      · have listed : member ∈ nonNull members := only ▸ List.mem_singleton_self member
        exact .only only (ih member (mem_nonNull listed) nullable)
    · rw [traits_of_several single, List.any_eq_true] at nullable
      obtain ⟨member, listed, nullish⟩ := nullable
      exact .arm listed nullish
  | array element =>
    rw [traits] at nullable
    exact .array (ih element (List.mem_singleton_self element) nullable)
  | reference name origin arguments =>
    rw [traits] at nullable
    split_ifs at nullable with parameter declared isArray isRecord
    obtain ⟨element, rfl, nullable⟩ := nullable_of_elementTraits nullable
    rw [Option.not_isSome_iff_eq_none] at declared
    rw [List.contains_iff_mem] at isArray
    exact .builtin isArray declared (ih element (List.mem_singleton_self element) nullable)
  | _ => simp [traits] at nullable

theorem Nullable.traits_eq {type : TypeExpr} (nullable : Nullable c generics type) :
    (traits c generics type).nullable = true := by
  induction nullable with
  | @nullish type nullish =>
    cases type with
    | primitive kind =>
      rw [traits]
      exact nullish
    | _ => cases nullish
  | arm listed nullish =>
    have any := List.any_eq_true.mpr ⟨_, listed, nullish⟩
    rw [traits]
    simp [any]
  | only only _ ih => rw [traits_of_single only, ih, Bool.or_true]
  | array _ ih =>
    rw [traits]
    exact ih
  | builtin isArray undeclared _ ih =>
    rw [traits, undeclared]
    simp [isArray]
    exact ih

theorem nullable_iff {type : TypeExpr} :
    (traits c generics type).nullable = true ↔ Nullable c generics type :=
  ⟨nullable_of_traits, Nullable.traits_eq⟩

theorem admitsNull_union {members : List TypeExpr} :
    AdmitsNull c generics (.union members) ↔ ∃ member ∈ members, AdmitsNull c generics member := by
  constructor
  · intro admits
    cases admits with
    | nullish nullish => cases nullish
    | arm listed admits => exact ⟨_, listed, admits⟩
  · rintro ⟨member, listed, admits⟩
    exact .arm listed admits

theorem not_admitsNull_array (element : TypeExpr) : ¬ AdmitsNull c generics (.array element) := by
  intro admits
  cases admits with
  | nullish nullish => cases nullish

/-- Builtin arrays have an argument, and names that admit null have none. -/
theorem AdmitsNull.not_nullable {name : String} {origin : Option String} {arguments : List TypeExpr}
    (admits : AdmitsNull c generics (.reference name origin arguments)) :
    ¬ Nullable c generics (.reference name origin arguments) := by
  intro nullable
  cases nullable with
  | nullish nullish => cases nullish
  | builtin =>
    cases admits with
    | nullish nullish => cases nullish

section solid
variable {members : List TypeExpr} {member : TypeExpr} (only : nonNull members = [member])
  (solid : ∀ other ∈ members, other.isNullish = false)
include only solid

theorem eq_of_only {other : TypeExpr} (listed : other ∈ members) : other = member := by
  have inside : other ∈ nonNull members :=
    List.mem_filter.mpr ⟨listed, by simp [solid other listed]⟩
  rw [only] at inside
  exact List.mem_singleton.mp inside

theorem nullable_union_only :
    Nullable c generics (.union members) ↔ Nullable c generics member := by
  refine ⟨fun nullable => ?_, .only only⟩
  cases nullable with
  | nullish nullish => cases nullish
  | arm listed nullish =>
    rw [solid _ listed] at nullish
    cases nullish
  | only other nullable =>
    obtain rfl := List.singleton_inj.mp (only.symm.trans other)
    exact nullable

theorem admitsNull_union_only :
    AdmitsNull c generics (.union members) ↔ AdmitsNull c generics member := by
  rw [admitsNull_union]
  constructor
  · rintro ⟨other, listed, admits⟩
    rw [eq_of_only only solid listed] at admits
    exact admits
  · have listed : member ∈ nonNull members := only ▸ List.mem_singleton_self member
    exact fun admits => ⟨member, mem_nonNull listed, admits⟩

end solid

theorem Straight.nullable_iff {type : TypeExpr} (straight : Straight c generics type) :
    Nullable c generics type ↔ AdmitsNull c generics type := by
  induction straight with
  | simple simple =>
    constructor
    · intro nullable
      cases nullable with
      | nullish nullish => exact .nullish nullish
      | _ => cases simple
    · intro admits
      cases admits with
      | nullish nullish => exact .nullish nullish
      | _ => cases simple
  | arm listed nullish => exact iff_of_true (.arm listed nullish) (.arm listed (.nullish nullish))
  | @only members member only _ ih =>
    by_cases null : ∃ other ∈ members, other.isNullish = true
    · obtain ⟨other, listed, nullish⟩ := null
      exact iff_of_true (.arm listed nullish) (.arm listed (.nullish nullish))
    · have solid : ∀ other ∈ members, other.isNullish = false := by simpa using null
      rw [nullable_union_only only solid, admitsNull_union_only only solid, ih]
  | several several solid =>
    refine iff_of_false (fun nullable => ?_) fun admits => ?_
    · cases nullable with
      | nullish nullish => cases nullish
      | arm listed nullish => exact solid _ listed (.nullish nullish)
      | only only => exact several (by rw [only]; rfl)
    · obtain ⟨member, listed, admits⟩ := admitsNull_union.mp admits
      exact solid member listed admits
  | array solid =>
    refine iff_of_false (fun nullable => ?_) (not_admitsNull_array _)
    cases nullable with
    | nullish nullish => cases nullish
    | array nullable => exact solid nullable
  | reference solid other => exact iff_of_false other solid

theorem straight_of_iff {type : TypeExpr}
    (same : Nullable c generics type ↔ AdmitsNull c generics type) : Straight c generics type := by
  induction type using TypeExpr.induction_parts with
  | step type ih =>
  cases type with
  | union members =>
    by_cases null : ∃ other ∈ members, other.isNullish = true
    · obtain ⟨other, listed, nullish⟩ := null
      exact .arm listed nullish
    have solid : ∀ other ∈ members, other.isNullish = false := by simpa using null
    by_cases single : (nonNull members).length = 1
    · obtain ⟨member, only⟩ := List.length_eq_one_iff.mp single
      have listed : member ∈ nonNull members := only ▸ List.mem_singleton_self member
      rw [nullable_union_only only solid, admitsNull_union_only only solid] at same
      exact .only only (ih member (mem_nonNull listed) same)
    · refine .several single fun member listed admits => ?_
      cases same.mpr (.arm listed admits) with
      | nullish nullish => cases nullish
      | arm listed nullish =>
        rw [solid _ listed] at nullish
        cases nullish
      | only only => exact single (by rw [only]; rfl)
  | array element =>
    exact .array fun nullable => not_admitsNull_array element (same.mp (.array nullable))
  | reference name origin arguments =>
    refine .reference (fun admits => ?_) fun nullable => ?_
    · exact admits.not_nullable (same.mpr admits)
    · exact (same.mp nullable).not_nullable nullable
  | _ => exact .simple rfl

theorem straight_iff {type : TypeExpr} : Straight c generics type ↔
    (Nullable c generics type ↔ AdmitsNull c generics type) :=
  ⟨Straight.nullable_iff, straight_of_iff⟩

end rules

/-- The property that counts among those of its name in an object type: the first one, if no
property of that name has been left out or there are no others. -/
def Prevails (g : Graph) (body : ObjectBody) (fact : PropertyFact) : Prop :=
  body.properties.find? (fun other => other.name == fact.name) = some fact ∧
    (¬ Skipped g body.subject fact.name ∨
      ∀ other ∈ body.properties, other.name = fact.name → other = fact)

/-- A property of a record goes by one of an object type: it is optional if the object type says so
or if its type counts as nullable. -/
structure Follows (c : Context) (body : ObjectBody) (fact : PropertyFact) (property : Property) :
    Prop where
  name : property.name = fact.name
  optional : property.optional = true ↔
    fact.optional = true ∨ Nullable c body.generics fact.type

/-- If the facts are ingested and their aliases have names, the record has the property unless it
has been left out. Whether it is optional there is the same as to ask for types that admit null if
the object type says so, or else just for straight types. -/
structure Reflects (c : Context) (g : Graph) (body : ObjectBody) (fact : PropertyFact)
    (node : Node) : Prop where
  present : (ingestion c.settings c.facts).1 = .ok () → c.NamedAliases →
    ¬ Skipped g body.subject fact.name →
    ∃ property ∈ node.shape.properties, property.name = fact.name
  follows : ∀ property ∈ node.shape.properties, property.name = fact.name →
    Follows c body fact property
  straight : ∀ property ∈ node.shape.properties, property.name = fact.name →
    ((property.optional = true ↔ fact.optional = true ∨ AdmitsNull c body.generics fact.type) ↔
      fact.optional = true ∨ Straight c body.generics fact.type)

/-- The object types that a record is made from: one in the facts if the record is inline, or else
those of the declarations that have its node. -/
structure MadeFrom (c : Context) (s : State) (id : NodeId) (node : Node)
    (bodies : ObjectBody → Prop) : Prop where
  inline : node.flags.anonymous = true →
    ∃ body, c.HasBody body ∧ ∀ other, bodies other ↔ other = body
  named : node.flags.anonymous = false → ∀ body, bodies body → ∃ place, Denoted c s place body id
  denoted : ∀ place body, Denoted c s place body id → bodies body
  follows : ∀ property ∈ node.shape.properties,
    ∃ body, bodies body ∧ ∃ fact ∈ body.properties, Follows c body fact property
  /-- So for all properties that count, if no other object type has one of that name. -/
  reflects : ∀ body, bodies body → ∀ fact, Prevails s.graph body fact →
    (∀ other, bodies other → other = body ∨ ∀ own ∈ other.properties, own.name ≠ fact.name) →
    Reflects c s.graph body fact node

section properties
variable {c : Context} {s : State} {body : ObjectBody} {fact : PropertyFact}

theorem Stems.made {property : Property} (stems : Stems c s body property)
    (prevails : Prevails s.graph body fact) (same : property.name = fact.name) :
    Made c s body fact property := by
  obtain ⟨before, other, after, split, made, skipped⟩ := stems
  have name : other.name = fact.name := made.name.symm.trans same
  obtain ⟨first, rest⟩ := prevails
  suffices isFact : other = fact by
    rw [← isFact]
    exact made
  rw [split, List.find?_append, Option.or_eq_some_iff] at first
  rcases first with inside | ⟨-, first⟩
  · refine rest.elim (fun kept => ?_) fun sole => sole other (by simp [split]) name
    have skipped := skipped fact (List.mem_of_find?_eq_some inside) name.symm
    rw [name] at skipped
    exact absurd skipped kept
  · rw [List.find?_cons_of_pos (by simp [name]), Option.some_inj] at first
    exact first

theorem Made.follows {property : Property} (made : Made c s body fact property) :
    Follows c body fact property :=
  ⟨made.name, by rw [made.optional, Bool.or_eq_true, nullable_iff]⟩

theorem Stems.follows {property : Property} (stems : Stems c s body property) :
    ∃ fact ∈ body.properties, Follows c body fact property := by
  obtain ⟨before, fact, after, split, made, -⟩ := stems
  exact ⟨fact, split ▸ List.mem_append_right _ List.mem_cons_self, made.follows⟩

theorem reflects_of_made {id : NodeId} {node : Node} (found : s.graph.nodes[id]? = some node)
    (record : node.shape.isRecord = true)
    (treated : (ingestion c.settings c.facts).1 = .ok () → c.NamedAliases →
      Treated s.graph id body.subject fact)
    (made : ∀ property ∈ node.shape.properties, property.name = fact.name →
      Made c s body fact property) : Reflects c s.graph body fact node where
  present ingested aliases kept := by
    rcases treated ingested aliases with skipped | ⟨other, isOther, present⟩
    · exact absurd skipped kept
    · rw [found, Option.some_inj] at isOther
      subst isOther
      exact present record
  follows property own same := (made property own same).follows
  straight property own same := by
    rw [(made property own same).follows.optional, straight_iff]
    cases fact.optional with
    | true => simp
    | false => simp

end properties

theorem ownsNode_of_objectBody {c : Context} {f : Fact} {body : ObjectBody}
    (isBody : objectBody? f = some body) : ownsNode c f = true := by
  obtain ⟨properties, isObject, -⟩ := Option.map_eq_some_iff.mp isBody
  rw [properties?] at isObject
  rw [ownsNode]
  split at isObject
  · cases isObject
  · rename_i _ object
    rw [object]
  · cases isObject

section records
variable {c : Context} {s : State} (apart : ¬ c.Clashes) (traced : Traced c ⟨[], s⟩) {id : NodeId}
  {node : Node} (found : s.graph.nodes[id]? = some node) (record : node.shape.isRecord = true)
include apart traced found record

theorem Traced.madeFrom_inline (anonymous : node.flags.anonymous = true)
    (undeclared : ∀ place body, ¬ Denoted c s place body id) :
    ∃ bodies, MadeFrom c s id node bodies := by
  obtain ⟨body, inline⟩ := traced.inline id node found anonymous record
  refine ⟨(· = body), fun _ => ⟨body, inline.known, fun _ => .rfl⟩, fun named => ?_,
    fun place other denoted => absurd denoted (undeclared place other),
    fun property own => ⟨body, rfl, (inline.stems property own).follows⟩, ?_⟩
  · rw [anonymous] at named
    cases named
  · rintro _ rfl fact prevails -
    refine reflects_of_made found record (fun ingested aliases => ?_) fun property own same =>
      (inline.stems property own).made prevails same
    have named := ingestion_named apart ingested aliases
    obtain ⟨frame, current, -⟩ | nameless | finished := inline.finished
    · cases current
    · exact absurd named nameless
    · exact finished.treated fact (List.mem_of_find?_eq_some prevails.1)

theorem Traced.madeFrom_declared (declared : node.flags.anonymous = false) :
    ∃ bodies, MadeFrom c s id node bodies := by
  refine ⟨fun body => ∃ place, Denoted c s place body id, fun anonymous => ?_,
    fun _ _ known => known, fun place _ denoted => ⟨place, denoted⟩, fun property own => ?_, ?_⟩
  · rw [declared] at anonymous
    cases anonymous
  · obtain ⟨place, body, denoted, stems, -⟩ := traced.declared id node found declared property own
    exact ⟨body, ⟨place, denoted⟩, stems.follows⟩
  · rintro body ⟨place, denoted⟩ fact prevails sole
    refine reflects_of_made found record (fun ingested aliases => ?_) fun property own same => ?_
    · have named := ingestion_named apart ingested aliases
      obtain ⟨frame, current, -⟩ | nameless | treated := traced.entered place body id denoted
      · cases current
      · exact absurd named nameless
      · exact treated fact (List.mem_of_find?_eq_some prevails.1)
    · obtain ⟨place', other, denoted', stems, -⟩ :=
        traced.declared id node found declared property own
      rcases sole other ⟨place', denoted'⟩ with rfl | strange
      · exact stems.made prevails same
      · obtain ⟨own, listed, follows⟩ := stems.follows
        exact absurd (follows.name.symm.trans same) (strange own listed)

end records

/-- The properties of every record are optional as the object types say that it is made from. -/
theorem property_optional {settings : Settings} {facts : List Fact}
    (apart : ¬ Context.Clashes ⟨settings, facts⟩) {id : NodeId} {node : Node}
    (found : (ingestion settings facts).2.graph.nodes[id]? = some node)
    (record : node.shape.isRecord = true) :
    ∃ bodies, MadeFrom ⟨settings, facts⟩ (ingestion settings facts).2 id node bodies := by
  have traced := ingestion_traced apart
  cases anonymous : node.flags.anonymous with
  | false => exact Traced.madeFrom_declared apart traced found record anonymous
  | true =>
    refine Traced.madeFrom_inline apart traced found record anonymous fun place body denoted => ?_
    obtain ⟨built, declaration, there, isBody⟩ := denoted
    have bears := (ingestion_attributed settings facts).bears place id declaration there built
      (ownsNode_of_objectBody isBody)
    obtain ⟨own, isOwn, named, -⟩ := (bears.resolve_left apart).bears
    rw [show own = node from Option.some_inj.mp (isOwn.symm.trans found), anonymous] at named
    cases named

def textOrNull : TypeExpr := .union [.primitive .string, .primitive .null]

/-- A record with a property that may be null and one that may not. -/
def profile : ObjectBody :=
  ⟨"Profile", [],
    [{ name := "nick", type := textOrNull }, { name := "age", type := .primitive .number }]⟩

def profileFacts : List Fact := [.ofType profile.subject (.object profile.properties [])]

/-- Both properties are there, and the one is optional. -/
theorem property_optional_profile :
    ∃ node, (ingestion {} profileFacts).2.graph.nodes[0]? = some node ∧
      ∀ fact ∈ profile.properties, ∃ property ∈ node.shape.properties, property.name = fact.name ∧
        (property.optional = true ↔ AdmitsNull ⟨{}, profileFacts⟩ [] fact.type) := by
  have built : (ingestion {} profileFacts).2.built.get? 0 = some 0 := by decide +kernel
  have silent : (ingestion {} profileFacts).2.graph.findings = [] := by decide +kernel
  have evaluated : ((ingestion {} profileFacts).2.graph.nodes[0]?).any (fun node =>
      node.shape.isRecord && !node.flags.anonymous) = true := by
    decide +kernel
  have apart : ¬ Context.Clashes ⟨{}, profileFacts⟩ := Context.not_clashes (by decide)
  have ingested : (ingestion {} profileFacts).1 = .ok () := by decide +kernel
  have aliases : Context.NamedAliases ⟨{}, profileFacts⟩ := by
    rw [Context.NamedAliases]
    decide
  have kept (name : String) :
      ¬ Skipped (ingestion {} profileFacts).2.graph profile.subject name := by
    rw [Skipped, silent]
    exact List.not_mem_nil
  obtain ⟨node, found, isNode⟩ := (Option.any_eq_true _ _).mp evaluated
  rw [Bool.and_eq_true, Bool.not_eq_true'] at isNode
  obtain ⟨bodies, madeFrom⟩ := property_optional apart found isNode.1
  have sole : ∀ other, bodies other → other = profile := by
    intro other known
    obtain ⟨place, -, fact, there, isBody⟩ := madeFrom.named isNode.2 other known
    rw [List.mem_singleton.mp (List.mem_of_getElem? there)] at isBody
    exact (Option.some_inj.mp isBody).symm
  refine ⟨node, found, fun fact listed => ?_⟩
  have first : profile.properties.find? (fun other => other.name == fact.name) = some fact := by
    rcases List.mem_pair.mp listed with rfl | rfl <;> simp [profile]
  have plain : fact.optional = false ∧ Straight ⟨{}, profileFacts⟩ [] fact.type := by
    rcases List.mem_pair.mp listed with rfl | rfl
    · exact ⟨rfl, .arm (List.mem_cons_of_mem _ List.mem_cons_self) rfl⟩
    · exact ⟨rfl, .simple rfl⟩
  have reflects := madeFrom.reflects profile (madeFrom.denoted 0 profile ⟨built, _, rfl, rfl⟩) fact
    ⟨first, .inl (kept fact.name)⟩ fun other known => .inl (sole other known)
  obtain ⟨property, own, same⟩ := reflects.present ingested aliases (kept fact.name)
  refine ⟨property, own, same, ?_⟩
  have rule := (reflects.straight property own same).mpr (.inr plain.2)
  simp only [plain.1, Bool.false_eq_true, false_or] at rule
  exact rule

/-- Null in the elements of an array, behind a name, and in a union inside another one. -/
def misplaced : List PropertyFact := [
  { name := "a", type := .array textOrNull },
  { name := "b", type := .reference "N" none [] },
  { name := "c", type := .union [textOrNull, .primitive .number] }]

def misplacedFacts : List Fact := [.ofType "R" (.object misplaced []), .ofType "N" textOrNull]

/-- The first of these does not admit null and is optional, the others admit null and are not. -/
theorem optional_ne_admitsNull :
    ((ingestion {} misplacedFacts).2.graph.nodes[0]?).map (fun node =>
      node.shape.properties.map fun property => (property.name, property.optional)) =
        some [("a", true), ("b", false), ("c", false)] ∧
    misplaced.map (fun fact => (fact.name, fact.optional)) =
        [("a", false), ("b", false), ("c", false)] ∧
    ∀ fact ∈ misplaced, AdmitsNull ⟨{}, misplacedFacts⟩ [] fact.type ↔ fact.name ≠ "a" := by
  have admits (generics : List String) : AdmitsNull ⟨{}, misplacedFacts⟩ generics textOrNull :=
    .arm (List.mem_cons_of_mem _ List.mem_cons_self) (.nullish rfl)
  refine ⟨by decide +kernel, by decide, fun fact listed => ?_⟩
  simp only [misplaced, List.mem_cons, List.not_mem_nil, or_false] at listed
  rcases listed with rfl | rfl | rfl
  · exact iff_of_false (not_admitsNull_array _) (by simp)
  · have refers : Context.place? ⟨{}, misplacedFacts⟩ "N" none = some 1 := by decide
    exact iff_of_true (.declared List.not_mem_nil refers rfl rfl (admits _)) (by simp)
  · exact iff_of_true (.arm List.mem_cons_self (admits _)) (by simp)

end Ingest

end TypeLoom
