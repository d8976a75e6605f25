import TypeLoom.Proofs.IngestSteps

/-! Where the properties of records come from. An inline record has the properties of one object
type that stands in the facts, a declared record those of the object types of the declarations that
have its node. A record that is not under construction has them all, apart from those that have been
left out with a remark. -/
namespace TypeLoom.Ingest
open TypeLoom.Graph TypeLoom.Fact

/-- A property that was made from one of an object type. -/
structure Made (c : Context) (s : State) (body : ObjectBody) (fact : PropertyFact)
    (property : Property) : Prop where
  name : property.name = fact.name
  optional : property.optional = (fact.optional || (traits c body.generics fact.type).nullable)
  inScope : InScope c s body.generics property.type

/-- A property that was made from the first one of its name in an object type, or else those before
have been left out. -/
def Stems (c : Context) (s : State) (body : ObjectBody) (property : Property) : Prop :=
  ∃ before fact after, body.properties = before ++ fact :: after ∧ Made c s body fact property ∧
    ∀ earlier ∈ before, earlier.name = fact.name → Skipped s.graph body.subject fact.name

/-- The node of a declaration that is an object type. -/
def Denoted (c : Context) (s : State) (place : Nat) (body : ObjectBody) (id : NodeId) : Prop :=
  s.built.get? place = some id ∧
    ∃ fact, c.facts[place]? = some fact ∧ objectBody? fact = some body

/-- A record whose properties stem from declarations that have its node and whose type parameters it
has. -/
def Attested (c : Context) (s : State) (id : NodeId) (node : Node) : Prop :=
  ∀ property ∈ node.shape.properties, ∃ place body, Denoted c s place body id ∧
    Stems c s body property ∧ body.generics ⊆ node.shape.parameterNames

/-- A record under construction: an inline one, or one that has been noted for its declaration. -/
structure Opened (c : Context) (s : State) (frame : Frame) : Prop where
  inline : frame.place = none →
    ∃ node, s.graph.nodes[frame.id]? = some node ∧ node.flags.anonymous = true
  declared : ∀ place, frame.place = some place → Denoted c s place frame.body frame.id

/-- Nothing is missing in an inline record. -/
structure Finished (g : Graph) (id : NodeId) (node : Node) (body : ObjectBody) : Prop where
  treated : ∀ fact ∈ body.properties, Treated g id body.subject fact
  taken : ∀ property ∈ node.shape.properties, ∀ name ∈ body.generics,
    property.type.mentions name = true → name ∈ node.shape.parameterNames

/-- An inline record, perhaps under construction. -/
structure Inline (c : Context) (σ : Stage) (id : NodeId) (node : Node) (body : ObjectBody) :
    Prop where
  known : c.HasBody body
  frames : ∀ frame ∈ σ.frames, frame.id = id → frame.place = none ∧ frame.body = body
  stems : ∀ property ∈ node.shape.properties, Stems c σ.state body property
  mentioned : ∀ name ∈ node.shape.parameterNames,
    ∃ property ∈ node.shape.properties, property.type.mentions name = true
  finished : (∃ frame ∈ σ.frames, frame.id = id) ∨ ¬ c.Named ∨ Finished σ.state.graph id node body

/-- All records come from object types in the facts. -/
structure Traced (c : Context) (σ : Stage) : Prop where
  opened : ∀ frame ∈ σ.frames, Opened c σ.state frame
  inline : ∀ (id : NodeId) (node : Node), σ.state.graph.nodes[id]? = some node →
    node.flags.anonymous = true → node.shape.isRecord = true → ∃ body, Inline c σ id node body
  declared : ∀ (id : NodeId) (node : Node), σ.state.graph.nodes[id]? = some node →
    node.flags.anonymous = false → Attested c σ.state id node
  entered : ∀ (place : Nat) (body : ObjectBody) (id : NodeId), Denoted c σ.state place body id →
    (∃ frame ∈ σ.frames, frame.place = some place) ∨ ¬ c.Named ∨
      ∀ fact ∈ body.properties, Treated σ.state.graph id body.subject fact

section later
variable {c : Context} {s s' : State} (after : Later c s s') (intact : s.graph.Intact)
include after

include intact in
theorem Stems.later {body : ObjectBody} {property : Property} (stems : Stems c s body property) :
    Stems c s' body property := by
  obtain ⟨before, fact, rest, split, made, skipped⟩ := stems
  refine ⟨before, fact, rest, split, ⟨made.name, made.optional, made.inScope.later after intact⟩,
    ?_⟩
  exact fun earlier listed same => (skipped earlier listed same).later after

theorem Denoted.later {place : Nat} {body : ObjectBody} {id : NodeId}
    (denoted : Denoted c s place body id) : Denoted c s' place body id :=
  ⟨after.built place id denoted.1, denoted.2⟩

include intact in
theorem Attested.later {id : NodeId} {node : Node} (attested : Attested c s id node) :
    Attested c s' id node := by
  intro property own
  obtain ⟨place, body, denoted, stems, generics⟩ := attested property own
  exact ⟨place, body, denoted.later after, stems.later after intact, generics⟩

theorem Opened.later {frame : Frame} (opened : Opened c s frame) : Opened c s' frame where
  inline none := by
    obtain ⟨node, found, anonymous⟩ := opened.inline none
    obtain ⟨shape, found', -⟩ := after.nodes frame.id node found
    exact ⟨_, found', anonymous⟩
  declared place isPlace := (opened.declared place isPlace).later after

theorem Finished.later {id : NodeId} {node : Node} {body : ObjectBody}
    (finished : Finished s.graph id node body) : Finished s'.graph id node body where
  treated fact listed := (finished.treated fact listed).later after
  taken := finished.taken

include intact in
theorem Inline.later {frames : List Frame} {id : NodeId} {node : Node} {body : ObjectBody}
    (inline : Inline c ⟨frames, s⟩ id node body) : Inline c ⟨frames, s'⟩ id node body where
  known := inline.known
  frames := inline.frames
  stems property own := (inline.stems property own).later after intact
  mentioned := inline.mentioned
  finished := inline.finished.imp_right (Or.imp_right (Finished.later after))

end later

theorem Inline.besides {c : Context} {frames : List Frame} {s : State} {id : NodeId} {node : Node}
    {body : ObjectBody} (inline : Inline c ⟨frames, s⟩ id node body) {frame : Frame}
    (other : frame.id ≠ id) : Inline c ⟨frame :: frames, s⟩ id node body where
  known := inline.known
  frames frame' member same := by
    rcases List.mem_cons.mp member with rfl | listed
    · exact absurd same other
    · exact inline.frames frame' listed same
  stems := inline.stems
  mentioned := inline.mentioned
  finished := inline.finished.imp_left List.exists_mem_cons_of_exists

theorem Opened.inside {c : Context} {s : State} (valid : Valid c s) {frame : Frame}
    (opened : Opened c s frame) : frame.id < s.graph.nodes.size := by
  cases place : frame.place with
  | none =>
    obtain ⟨node, found, -⟩ := opened.inline place
    exact (Array.getElem?_eq_some_iff.mp found).1
  | some place' => exact valid.built place' frame.id (opened.declared place' place).1

section moves
variable {c : Context} {frames : List Frame} {s s' : State} (valid : Valid c s)
  (traced : Traced c ⟨frames, s⟩)
include valid traced

theorem Traced.step (after : Later c s s')
    (built : ∀ place body id, Denoted c s' place body id → s.built.get? place = some id)
    (inline : ∀ (id : NodeId) (node : Node), s'.graph.nodes[id]? = some node →
      node.flags.anonymous = true → node.shape.isRecord = true →
      s.graph.nodes[id]? = some node ∨ ∃ body, Inline c ⟨frames, s'⟩ id node body)
    (declared : ∀ (id : NodeId) (node : Node), s'.graph.nodes[id]? = some node →
      node.flags.anonymous = false → node.shape.isRecord = true →
      s.graph.nodes[id]? = some node ∨ Attested c s' id node) : Traced c ⟨frames, s'⟩ where
  opened frame member := (traced.opened frame member).later after
  inline id node found anonymous record := by
    rcases inline id node found anonymous record with same | accounted
    · obtain ⟨body, known⟩ := traced.inline id node same anonymous record
      exact ⟨body, known.later after valid.graph⟩
    · exact accounted
  declared id node found named property own := by
    rcases declared id node found named (Shape.isRecord_of_mem own) with same | attested
    · exact (traced.declared id node same named).later after valid.graph property own
    · exact attested property own
  entered place body id denoted := by
    have before : Denoted c s place body id := ⟨built place body id denoted, denoted.2⟩
    exact (traced.entered place body id before).imp_right
      (Or.imp_right fun treated fact listed => (treated fact listed).later after)

theorem Traced.aside (after : Later c s s')
    (built : ∀ place body id, Denoted c s' place body id → s.built.get? place = some id)
    (records : ∀ (id : NodeId) (node : Node), s'.graph.nodes[id]? = some node →
      node.shape.isRecord = true → s.graph.nodes[id]? = some node) : Traced c ⟨frames, s'⟩ :=
  traced.step valid after built (fun id node found _ record => .inl (records id node found record))
    fun id node found _ record => .inl (records id node found record)

omit valid traced in
theorem Aside.record {g g' : Graph} (aside : Aside c g g') {id : NodeId} {node : Node}
    (found : g'.nodes[id]? = some node) (record : node.shape.isRecord = true) :
    g.nodes[id]? = some node := by
  have ordinary : node.shape.isOrdinary = true := by
    revert record
    cases node.shape <;> simp [Shape.isRecord, Shape.isOrdinary]
  cases there : g.nodes[id]? with
  | none =>
    rw [aside.new id node found there] at ordinary
    cases ordinary
  | some before =>
    obtain ⟨shape, found', grows, same⟩ := aside.old id before there
    rw [found, Option.some_inj] at found'
    subst found'
    have isShape := same ((Shape.isOrdinary_of_label grows.label).symm.trans ordinary)
    rw [isShape]

theorem Traced.start {node : Node} {body : ObjectBody} (nameless : Nameless s.graph node)
    (record : node.shape = .record [] []) (known : c.HasBody body) :
    Traced c ⟨⟨s.graph.nodes.size, none, body⟩ :: frames,
      { s with graph := (s.graph.push node).2 }⟩ := by
  have after : Later c s { s with graph := (s.graph.push node).2 } := .of_push rfl rfl
  have last : (s.graph.push node).2.nodes[s.graph.nodes.size]? = some node :=
    Array.getElem?_push_size
  refine ⟨fun frame member => ?_, fun id other found anonymous isRecord => ?_,
    fun id other found named => ?_, fun place body' id denoted => ?_⟩
  · rcases List.mem_cons.mp member with rfl | old
    · exact ⟨fun _ => ⟨node, last, nameless.anonymous⟩, fun _ isPlace => by cases isPlace⟩
    · exact (traced.opened frame old).later after
  · rcases node_of_push found with ⟨rfl, rfl⟩ | old
    · refine ⟨body, known, fun frame member same => ?_, ?_, ?_, .inl ⟨_, List.mem_cons_self, rfl⟩⟩
      · rcases List.mem_cons.mp member with rfl | old
        · exact ⟨rfl, rfl⟩
        · exact absurd same ((traced.opened frame old).inside valid).ne
      · rw [record]
        exact fun _ none => by cases none
      · rw [record]
        exact fun _ none => by cases none
    · obtain ⟨body', inline⟩ := traced.inline id other old anonymous isRecord
      exact ⟨body', (inline.later after valid.graph).besides
        (Array.getElem?_eq_some_iff.mp old).1.ne'⟩
  · rcases node_of_push found with ⟨rfl, rfl⟩ | old
    · rw [nameless.anonymous] at named
      cases named
    · exact (traced.declared id other old named).later after valid.graph
  · exact (traced.entered place body' id denoted).imp List.exists_mem_cons_of_exists
      (Or.imp_right fun treated fact listed => (treated fact listed).later after)

theorem Traced.enter {place : Nat} {fact : Fact} {body : ObjectBody} {id : NodeId}
    (there : c.facts[place]? = some fact) (isBody : objectBody? fact = some body)
    (unbuilt : s.built.get? place = none) (bears : Bears s.graph fact id) :
    Traced c ⟨⟨id, some place, body⟩ :: frames, { s with built := s.built.insert place id }⟩ := by
  have after : Later c s { s with built := s.built.insert place id } := .of_built (.inr unbuilt)
  obtain ⟨own, isOwn, named, -⟩ := bears
  refine ⟨fun frame member => ?_, fun other node found anonymous isRecord => ?_,
    fun other node found named => ?_, fun other body' found denoted => ?_⟩
  · rcases List.mem_cons.mp member with rfl | old
    · refine ⟨fun isPlace => (by cases isPlace), fun other same => ?_⟩
      cases same
      exact ⟨Table.get?_insert_self .., fact, there, isBody⟩
    · exact (traced.opened frame old).later after
  · obtain ⟨body', inline⟩ := traced.inline other node found anonymous isRecord
    refine ⟨body', (inline.later after valid.graph).besides fun same => ?_⟩
    rw [← same, show s.graph.nodes[id]? = some own from isOwn, Option.some_inj] at found
    rw [← found, named] at anonymous
    cases anonymous
  · exact (traced.declared other node found named).later after valid.graph
  · by_cases same : other = place
    · subst same
      exact .inl ⟨_, List.mem_cons_self, rfl⟩
    · have before : Denoted c s other body' found :=
        ⟨(Table.get?_insert_of_ne _ _ same).symm.trans denoted.1, denoted.2⟩
      exact (traced.entered other body' found before).imp List.exists_mem_cons_of_exists
        (Or.imp_right fun treated fact listed => (treated fact listed).later after)

omit valid traced in
theorem addProperty_cases (shape : Shape) (property : Property) :
    shape.addProperty property = shape ∨
      (∀ own ∈ shape.properties, own.name ≠ property.name) ∧
        (shape.addProperty property).properties = shape.properties ++ [property] ∧
        (shape.addProperty property).parameterNames = shape.parameterNames := by
  cases shape with
  | record properties generics =>
    dsimp only [Shape.addProperty]
    split
    · exact .inl rfl
    · rename_i other
      refine .inr ⟨fun own listed same => other ?_, rfl, rfl⟩
      exact List.any_eq_true.mpr ⟨own, listed, decide_eq_true same⟩
  | _ => exact .inl rfl

omit traced in
theorem node_of_reshape {id other : NodeId} {f : Shape → Shape} {node : Node}
    (found : (s.graph.modifyShape id f).nodes[other]? = some node) :
    s.graph.nodes[other]? = some node ∨ other = id ∧ ∃ old, s.graph.nodes[other]? = some old ∧
      node = { old with shape := f old.shape } := by
  rw [reshape_getElem? valid] at found
  split_ifs at found with same
  · obtain ⟨old, there, rfl⟩ := Option.map_eq_some_iff.mp found
    exact .inr ⟨same.symm, old, there, rfl⟩
  · exact .inl found

omit valid traced in
theorem Stems.of_new {id : NodeId} {body : ObjectBody} {before after : List PropertyFact}
    {fact : PropertyFact} {property : Property} (split : body.properties = before ++ fact :: after)
    (treated : ∀ earlier ∈ before, Treated s.graph id body.subject earlier)
    (made : Made c s body fact property) {node : Node} (there : s.graph.nodes[id]? = some node)
    (record : node.shape.isRecord = true)
    (new : ∀ own ∈ node.shape.properties, own.name ≠ property.name) : Stems c s body property := by
  refine ⟨before, fact, after, split, made, fun earlier listed same => ?_⟩
  rcases treated earlier listed with skipped | ⟨other, found, present⟩
  · rw [same] at skipped
    exact skipped
  · rw [there, Option.some_inj] at found
    subst found
    obtain ⟨own, mem, name⟩ := present record
    exact absurd (name.trans (same.trans made.name.symm)) (new own mem)

section properties
variable {id : NodeId} {old node : Node} {body : ObjectBody} {property : Property}
  (stems : Stems c s body property)
  (properties : node.shape.properties = old.shape.properties ++ [property])
  (parameters : node.shape.parameterNames = old.shape.parameterNames)
include stems properties parameters

omit valid traced in
theorem Inline.extend (inline : Inline c ⟨frames, s⟩ id old body)
    (current : ∃ frame ∈ frames, frame.id = id) : Inline c ⟨frames, s⟩ id node body where
  known := inline.known
  frames := inline.frames
  stems own member := by
    rw [properties] at member
    rcases List.mem_append.mp member with listed | last
    · exact inline.stems own listed
    · rw [List.mem_singleton.mp last]
      exact stems
  mentioned name member := by
    rw [parameters] at member
    obtain ⟨own, listed, mentions⟩ := inline.mentioned name member
    exact ⟨own, properties ▸ List.mem_append_left _ listed, mentions⟩
  finished := .inl current

omit valid traced in
theorem Attested.extend (attested : Attested c s id old) {place : Nat}
    (denoted : Denoted c s place body id) (generics : body.generics ⊆ old.shape.parameterNames) :
    Attested c s id node := by
  intro own member
  rw [properties] at member
  rw [parameters]
  rcases List.mem_append.mp member with listed | last
  · exact attested own listed
  · rw [List.mem_singleton.mp last]
    exact ⟨place, body, denoted, stems, generics⟩

end properties

omit valid traced in
/-- A declared record under construction is that of a place, which is why it has been opened. -/
theorem Opened.place_of_named {frame : Frame} (opened : Opened c s frame) {node : Node}
    (there : s.graph.nodes[frame.id]? = some node) (named : node.flags.anonymous = false) :
    ∃ place, frame.place = some place ∧ Denoted c s place frame.body frame.id := by
  cases isPlace : frame.place with
  | none =>
    obtain ⟨other, found, anonymous⟩ := opened.inline isPlace
    rw [there, Option.some_inj] at found
    rw [← found, named] at anonymous
    cases anonymous
  | some place => exact ⟨place, rfl, opened.declared place isPlace⟩

theorem Traced.property {frame : Frame} {before after : List PropertyFact} {fact : PropertyFact}
    {property : Property} (current : frame ∈ frames)
    (split : frame.body.properties = before ++ fact :: after)
    (treated : ∀ earlier ∈ before, Treated s.graph frame.id frame.body.subject earlier)
    (made : Made c s frame.body fact property)
    (provided : frame.place.isSome = true → Provides s.graph frame.id frame.body.generics)
    (later : Later c s { s with graph := s.graph.addProperty frame.id property }) :
    Traced c ⟨frames, { s with graph := s.graph.addProperty frame.id property }⟩ := by
  refine traced.step valid later (fun _ _ _ denoted => denoted.1)
    (fun id node found anonymous isRecord => ?_) fun id node found named isRecord => ?_
  all_goals
    obtain same | ⟨rfl, old, there, rfl⟩ := node_of_reshape valid found
    · exact .inl same
    obtain unchanged | ⟨new, properties, parameters⟩ := addProperty_cases old.shape property
    · rw [unchanged]
      exact .inl there
    have wasRecord : old.shape.isRecord = true :=
      (Shape.isRecord_of_label (old.shape.grows_addProperty property).label).symm.trans isRecord
    have stems := (Stems.of_new split treated made there wasRecord new).later later valid.graph
  · obtain ⟨body, inline⟩ := traced.inline frame.id old there anonymous wasRecord
    obtain ⟨-, rfl⟩ := inline.frames frame current rfl
    exact .inr ⟨frame.body, Inline.extend stems properties parameters
      (inline.later later valid.graph) ⟨frame, current, rfl⟩⟩
  · obtain ⟨place, isPlace, denoted⟩ := (traced.opened frame current).place_of_named there named
    obtain ⟨other, found', present⟩ := provided (by rw [isPlace]; rfl)
    rw [there, Option.some_inj] at found'
    subst found'
    exact .inr (Attested.extend stems properties parameters
      ((traced.declared frame.id old there named).later later valid.graph) (denoted.later later)
      (present wasRecord))

omit valid traced in
theorem mem_parameterNames_addParameter {shape : Shape} {parameter : Parameter} {name : String}
    (member : name ∈ (shape.addParameter parameter).parameterNames) :
    name ∈ shape.parameterNames ∨ name = parameter.name := by
  rw [Shape.addParameter] at member
  split at member
  · exact .inl member
  · revert member
    cases shape <;> simp [Shape.withGenerics, Shape.parameterNames, Shape.generics]

theorem Traced.parameter {id : NodeId} {parameter : Parameter}
    (later : Later c s { s with graph := s.graph.addParameter id parameter })
    (used : ∀ node, s.graph.nodes[id]? = some node → node.flags.anonymous = true →
      (∃ frame ∈ frames, frame.id = id) ∧
        ∃ property ∈ node.shape.properties, property.type.mentions parameter.name = true) :
    Traced c ⟨frames, { s with graph := s.graph.addParameter id parameter }⟩ := by
  refine traced.step valid later (fun _ _ _ denoted => denoted.1)
    (fun other node found anonymous isRecord => ?_) fun other node found named isRecord => ?_
  · obtain same | ⟨rfl, old, there, rfl⟩ := node_of_reshape valid found
    · exact .inl same
    · have wasRecord : old.shape.isRecord = true :=
        (Shape.isRecord_of_label (old.shape.grows_addParameter parameter).label).symm.trans isRecord
      obtain ⟨body, inline⟩ := traced.inline other old there anonymous wasRecord
      obtain ⟨open', property, listed, mentions⟩ := used old there anonymous
      have inline := inline.later later valid.graph
      have properties := properties_addParameter old.shape parameter
      refine .inr ⟨body, inline.known, inline.frames, ?_, fun name member => ?_, .inl open'⟩
      · rw [properties]
        exact inline.stems
      · rw [properties]
        rcases mem_parameterNames_addParameter member with before | rfl
        · exact inline.mentioned name before
        · exact ⟨property, listed, mentions⟩
  · obtain same | ⟨rfl, old, there, rfl⟩ := node_of_reshape valid found
    · exact .inl same
    · refine .inr fun property own => ?_
      rw [properties_addParameter] at own
      obtain ⟨place, body, denoted, stems, generics⟩ :=
        (traced.declared other old there named).later later valid.graph property own
      exact ⟨place, body, denoted, stems,
        List.Subset.trans generics (old.shape.grows_addParameter parameter).generics⟩

end moves

theorem Traced.leave {c : Context} {frames : List Frame} {s : State} {frame : Frame}
    (traced : Traced c ⟨frame :: frames, s⟩)
    (done : ¬ c.Named ∨
      (∀ fact ∈ frame.body.properties, Treated s.graph frame.id frame.body.subject fact) ∧
        (frame.place = none → ∀ node, s.graph.nodes[frame.id]? = some node →
          Finished s.graph frame.id node frame.body)) : Traced c ⟨frames, s⟩ := by
  refine ⟨fun other member => traced.opened other (List.mem_cons_of_mem frame member),
    fun id node found anonymous record => ?_, traced.declared, fun place body id denoted => ?_⟩
  · obtain ⟨body, inline⟩ := traced.inline id node found anonymous record
    refine ⟨body, inline.known,
      fun other member => inline.frames other (List.mem_cons_of_mem frame member),
      inline.stems, inline.mentioned, ?_⟩
    rcases inline.finished with ⟨other, member, same⟩ | finished
    · rcases List.mem_cons.mp member with rfl | member
      · obtain ⟨isPlace, rfl⟩ := inline.frames other List.mem_cons_self same
        subst same
        exact .inr (done.imp_right fun done => done.2 isPlace node found)
      · exact .inl ⟨other, member, same⟩
    · exact .inr finished
  · rcases traced.entered place body id denoted with ⟨other, member, same⟩ | finished
    · rcases List.mem_cons.mp member with rfl | member
      · obtain ⟨known, fact, there, isBody⟩ := (traced.opened other List.mem_cons_self).declared
          place same
        obtain ⟨known', fact', there', isBody'⟩ := denoted
        rw [there, Option.some_inj] at there'
        subst there'
        rw [isBody, Option.some_inj] at isBody'
        subst isBody'
        rw [show s.built.get? place = some id from known', Option.some_inj] at known
        subst known
        exact .inr (done.imp_right And.left)
      · exact .inl ⟨other, member, same⟩
    · exact .inr finished

theorem setDictionaryValue_of_isRecord {value : TypeUse} {shape : Shape}
    (record : (setDictionaryValue value shape).isRecord = true) :
    setDictionaryValue value shape = shape := by
  cases shape with
  | dictionary key old generics => cases record
  | _ => rfl

theorem Move.traced {c : Context} {σ σ' : Stage} (move : Move c σ σ') (apart : ¬ c.Clashes)
    (valid : Valid c σ.state) (traced : Traced c σ) : Traced c σ' := by
  have later := move.later valid.toIntact
  cases move with
  | aside aside =>
    exact traced.aside valid later (fun _ _ _ denoted => denoted.1) fun _ _ => aside.record
  | inline nameless other _ =>
    refine traced.aside valid later (fun _ _ _ denoted => denoted.1) fun id node found record => ?_
    rcases node_of_push found with ⟨-, rfl⟩ | old
    · rw [other] at record
      cases record
    · exact old
  | start nameless record known => exact traced.start valid nameless record known
  | mistake clash _ => exact absurd clash apart
  | declare _ _ declared empty =>
    refine traced.step valid later (fun _ _ _ denoted => denoted.1)
      (fun id node found anonymous _ => ?_) fun id node found _ record => ?_
    · rcases node_of_push found with ⟨-, rfl⟩ | old
      · rw [declared.declares.flags] at anonymous
        cases anonymous
      · exact .inl old
    · rcases node_of_push found with ⟨-, rfl⟩ | old
      · refine .inr fun property own => ?_
        rw [empty record] at own
        cases own
      · exact .inl old
  | enter there isBody unbuilt _ bears =>
    exact traced.enter valid there isBody unbuilt (bears.resolve_left apart).bears
  | @mark _ s place fact id there _ unbuilt _ =>
    refine traced.aside valid later (fun other body found denoted => ?_) fun _ _ found _ => found
    obtain ⟨known, fact', there', isBody⟩ := denoted
    by_cases same : other = place
    · subst same
      rw [there, Option.some_inj] at there'
      subst there'
      rcases unbuilt with known' | ⟨-, none⟩
      · rw [show (s.built.insert other id).get? other = some id from
          Table.get?_insert_self ..] at known
        rw [known', known]
      · rw [none] at isBody
        cases isBody
    · rw [← known]
      exact (Table.get?_insert_of_ne _ _ same).symm
  | value _ _ =>
    refine traced.aside valid later (fun _ _ _ denoted => denoted.1) fun id node found record => ?_
    obtain ⟨before, there, rfl | rfl⟩ := node_of_modifyShape found
    · exact there
    · rw [setDictionaryValue_of_isRecord record]
      exact there
  | @parameter _ s fact id parameter bears _ =>
    refine traced.parameter valid later fun node found anonymous => ?_
    obtain ⟨own, isOwn, named, -⟩ := (bears.resolve_left apart).bears
    rw [found, Option.some_inj] at isOwn
    rw [isOwn, named] at anonymous
    cases anonymous
  | property current split treated name optional inScope provided =>
    exact traced.property valid current split treated ⟨name, optional, inScope⟩ provided later
  | @take _ s frame node property name current _ found own mentions =>
    refine traced.parameter valid later fun node' found' _ => ⟨⟨frame, current, rfl⟩, ?_⟩
    rw [found, Option.some_inj] at found'
    subst found'
    exact ⟨property, own, mentions⟩
  | close treated taken =>
    exact traced.leave (.inr ⟨treated, fun inline node found => ⟨treated, taken inline node found⟩⟩)
  | abandon nameless => exact traced.leave (.inl nameless)

theorem Moves.traced {c : Context} {σ σ' : Stage} (moves : Moves c σ σ') (apart : ¬ c.Clashes)
    (valid : Valid c σ.state) (traced : Traced c σ) : Traced c σ' := by
  induction moves with
  | refl => exact traced
  | tail before move ih => exact move.traced apart (Moves.valid before valid) ih

theorem ingestion_traced {settings : Settings} {facts : List Fact}
    (apart : ¬ Context.Clashes ⟨settings, facts⟩) :
    Traced ⟨settings, facts⟩ ⟨[], (ingestion settings facts).2⟩ := by
  refine (ingestion_moves settings facts).1.traced apart (valid_empty _) ⟨?_, ?_, ?_, ?_⟩
  · intro _ none
    cases none
  · intro _ _ found
    cases found
  · intro _ _ found
    cases found
  · intro _ _ _ denoted
    cases denoted.1

end TypeLoom.Ingest
