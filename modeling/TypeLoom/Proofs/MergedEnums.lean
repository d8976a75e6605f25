import TypeLoom.Proofs.MergedParameters
import TypeLoom.Proofs.SharedIdentities

/-! Members of merged enums. A digest is taken of one text for each member: its name, its number and
its serialized text, with equality signs between them and nothing where a part is missing. Such a
text does not always tell its parts. Main result: enums are merged exactly if their members have the
same texts one by one, so members of merged enums may differ where the serialized text is missing or
empty, and where a name or a serialized text has the sign in it. -/
namespace TypeLoom.Graph
open Operation

namespace Member

def valueText (m : Member) : String := (m.value.map toString).getD ""

def wireText (m : Member) : String := m.wire.getD ""

/-- The name of `n` reads like the name of `m` and what follows it: its number, or its number and
the beginning of its serialized text. -/
inductive RunsInto (m n : Member) : Prop
  | value (name : n.name = m.name ++ "=" ++ m.valueText)
      (wire : m.wireText = n.valueText ++ "=" ++ n.wireText)
  | wire (part : String) (name : n.name = m.name ++ "=" ++ m.valueText ++ "=" ++ part)
      (wire : m.wireText = part ++ "=" ++ n.valueText ++ "=" ++ n.wireText)

/-- Members that their texts do not tell apart. -/
inductive Alike (m n : Member) : Prop
  /-- A serialized text that is missing counts as empty. -/
  | same (name : m.name = n.name) (value : m.value = n.value) (wire : m.wireText = n.wireText)
  | left (runs : m.RunsInto n)
  | right (runs : n.RunsInto m)

/-- Members whose parts can be told from their text. -/
def Clear (m : Member) : Prop := '=' ∉ m.name.toList ∧ m.wire ≠ some ""

end Member

theorem isDigit_of_mem_repr {n : Nat} {c : Char} (member : c ∈ n.repr.toList) :
    c.isDigit = true := by
  rw [Nat.repr, String.toList_ofList] at member
  exact Nat.isDigit_of_mem_toDigits (by decide) (by decide) member

theorem repr_ne_minus_append (n : Nat) (text : String) : n.repr ≠ "-" ++ text := by
  intro same
  have member : '-' ∈ n.repr.toList := by
    rw [same, String.toList_append]
    exact List.mem_cons_self
  exact absurd (isDigit_of_mem_repr member) (by decide)

theorem int_repr_inj {a b : Int} (same : a.repr = b.repr) : a = b := by
  rw [Int.repr_eq_if, Int.repr_eq_if] at same
  split_ifs at same with signA signB signB
  · have := toString_inj same
    omega
  · exact absurd same (repr_ne_minus_append _ _)
  · exact absurd same.symm (repr_ne_minus_append _ _)
  · have := toString_inj ((String.append_right_inj _).mp same)
    omega

theorem int_repr_ne_empty (a : Int) : a.repr ≠ "" := by
  have number (n : Nat) : n.repr ≠ "" := by
    rw [Nat.repr, ne_eq, String.ofList_eq_empty_iff]
    exact Nat.toDigits_ne_nil
  rw [Int.repr_eq_if]
  split_ifs
  · exact number _
  · intro same
    have length := congrArg String.length same
    rw [String.length_append] at length
    have : "-".length = 1 := rfl
    have : "".length = 0 := rfl
    omega

theorem valueText_none {m : Member} (missing : m.value = none) : m.valueText = "" := by
  rw [Member.valueText, missing]
  rfl

theorem valueText_some {m : Member} {value : Int} (found : m.value = some value) :
    m.valueText = value.repr := by
  rw [Member.valueText, found, Option.map_some, Option.getD_some, Int.toString_eq_repr]

theorem valueText_inj {m n : Member} (same : m.valueText = n.valueText) : m.value = n.value := by
  cases ofM : m.value with
  | none =>
    cases ofN : n.value with
    | none => rfl
    | some second =>
      rw [valueText_none ofM, valueText_some ofN] at same
      exact absurd same.symm (int_repr_ne_empty second)
  | some first =>
    cases ofN : n.value with
    | none =>
      rw [valueText_some ofM, valueText_none ofN] at same
      exact absurd same (int_repr_ne_empty first)
    | some second =>
      rw [valueText_some ofM, valueText_some ofN] at same
      rw [int_repr_inj same]

theorem equals_not_mem_valueText (m : Member) : '=' ∉ m.valueText.toList := by
  have number (n : Nat) : '=' ∉ n.repr.toList := by
    intro member
    exact absurd (isDigit_of_mem_repr member) (by decide)
  cases found : m.value with
  | none =>
    rw [valueText_none found]
    decide
  | some value =>
    rw [valueText_some found, Int.repr_eq_if]
    split_ifs
    · exact number _
    · rw [String.toList_append, List.mem_append, not_or]
      exact ⟨by decide, number _⟩

theorem memberText_eq (m : Member) :
    memberText m = m.name ++ "=" ++ m.valueText ++ "=" ++ m.wireText := rfl

theorem headText_eq_iff {m n : Member} :
    m.name ++ "=" ++ m.valueText = n.name ++ "=" ++ n.valueText ↔
      m.name = n.name ∧ m.value = n.value := by
  constructor
  · intro same
    have chars : m.name.toList ++ '=' :: m.valueText.toList =
        n.name.toList ++ '=' :: n.valueText.toList := by
      simpa using congrArg String.toList same
    obtain ⟨name, value⟩ :=
      append_inj_of_last (equals_not_mem_valueText m) (equals_not_mem_valueText n) chars
    exact ⟨String.toList_inj.mp name, valueText_inj (String.toList_inj.mp value)⟩
  · rintro ⟨name, value⟩
    rw [Member.valueText, Member.valueText, name, value]

theorem runsInto_iff {m n : Member} : m.RunsInto n ↔
    ∃ part, n.name ++ "=" ++ n.valueText = m.name ++ "=" ++ m.valueText ++ "=" ++ part ∧
      m.wireText = part ++ "=" ++ n.wireText := by
  constructor
  · rintro (⟨name, wire⟩ | ⟨part, name, wire⟩)
    · exact ⟨n.valueText, by rw [name], wire⟩
    · refine ⟨part ++ "=" ++ n.valueText, ?_, wire⟩
      rw [name]
      simp only [String.append_assoc]
  · rintro ⟨part, heads, wire⟩
    rw [@separated_eq_iff _ '=' rfl] at heads
    obtain ⟨name, rfl⟩ | ⟨inner, name, rfl⟩ | ⟨inner, -, value⟩ := heads
    · exact .value name wire
    · exact .wire inner name wire
    · have member : '=' ∈ n.valueText.toList := by
        rw [value]
        simp
      exact absurd member (equals_not_mem_valueText n)

theorem memberText_eq_iff {m n : Member} : memberText m = memberText n ↔ m.Alike n := by
  rw [memberText_eq, memberText_eq, @separated_eq_iff _ '=' rfl, headText_eq_iff]
  constructor
  · rintro (⟨⟨name, value⟩, wire⟩ | runs | runs)
    · exact .same name value wire
    · exact .right (runsInto_iff.mpr runs)
    · exact .left (runsInto_iff.mpr runs)
  · rintro (⟨name, value, wire⟩ | runs | runs)
    · exact .inl ⟨⟨name, value⟩, wire⟩
    · exact .inr (.inr (runsInto_iff.mp runs))
    · exact .inr (.inl (runsInto_iff.mp runs))

theorem Member.RunsInto.equals_mem {m n : Member} (runs : m.RunsInto n) : '=' ∈ n.name.toList := by
  obtain ⟨name, -⟩ | ⟨part, name, -⟩ := runs
  all_goals
    rw [name]
    simp

theorem eq_of_alike {m n : Member} (alike : m.Alike n) (clearM : m.Clear) (clearN : n.Clear) :
    m = n := by
  cases alike with
  | same name value wire =>
    obtain ⟨nameM, valueM, wireM⟩ := m
    obtain ⟨nameN, valueN, wireN⟩ := n
    obtain rfl : nameM = nameN := name
    obtain rfl : valueM = valueN := value
    have wires : wireM = wireN := by
      cases wireM with
      | none =>
        cases wireN with
        | none => rfl
        | some second => exact absurd (congrArg some wire.symm) clearN.2
      | some first =>
        cases wireN with
        | none => exact absurd (congrArg some wire) clearM.2
        | some second => exact congrArg some wire
    rw [wires]
  | left runs => exact absurd runs.equals_mem clearN.1
  | right runs => exact absurd runs.equals_mem clearM.1

/-- What the digest of an enum is taken of besides its label; nothing for any other shape. -/
def Shape.enumEntries (s : Shape) : Option (List UInt8) :=
  if s.label = "string-union" then some (contentEntries (fun _ => "") (fun _ => "") s) else none

theorem enumEntries_stringUnion (members : List Member) :
    (Shape.stringUnion members).enumEntries =
      some ((members.map memberText).flatMap (entry "member")) := by
  rw [Shape.enumEntries, Shape.label, if_pos rfl, contentEntries, List.flatMap_map]

theorem eq_stringUnion_of_label {s : Shape} (label : s.label = "string-union") :
    ∃ members, s = .stringUnion members := by
  cases s with
  | stringUnion members => exact ⟨members, rfl⟩
  | _ => simp [Shape.label] at label

theorem enumEntries_mapNodes (f : NodeId → NodeId) (s : Shape) :
    (s.mapNodes f).enumEntries = s.enumEntries := by
  have label : (s.mapNodes f).label = s.label := congrArg Prod.fst (s.heading_mapNodes f)
  rw [Shape.enumEntries, Shape.enumEntries, label]
  split_ifs with isEnum
  · obtain ⟨members, rfl⟩ := eq_stringUnion_of_label isEnum
    rfl
  · rfl

theorem enumEntries_of_entries {hash : Hash} {d e : NodeId → String} {s t : Shape}
    (same : shapeEntries hash d s = shapeEntries hash e t) : s.enumEntries = t.enumEntries := by
  obtain ⟨label, rest⟩ := label_of_entries same
  have labels : s.label = t.label := label
  rw [Shape.enumEntries, Shape.enumEntries, labels]
  split_ifs with isEnum
  · obtain ⟨members, rfl⟩ := eq_stringUnion_of_label (labels.trans isEnum)
    obtain ⟨others, rfl⟩ := eq_stringUnion_of_label isEnum
    exact congrArg some rest
  · rfl

/-- Every text of a member is shorter than what its length is written in. -/
def EnumsFit (g : Graph) : Prop :=
  ∀ id members, g.shape? id = some (.stringUnion members) →
    ∀ m ∈ members, (bytes (memberText m)).length < 256 ^ 8

theorem forall₂_alike_iff {xs ys : List Member} :
    List.Forall₂ Member.Alike xs ys ↔ xs.map memberText = ys.map memberText := by
  rw [← List.forall₂_eq_eq_eq, List.forall₂_map_left_iff, List.forall₂_map_right_iff]
  simp only [memberText_eq_iff]

theorem eq_of_forall₂_alike {xs ys : List Member} (alike : List.Forall₂ Member.Alike xs ys)
    (clear : ∀ m ∈ xs ++ ys, m.Clear) : xs = ys := by
  rw [List.forall_mem_append] at clear
  obtain ⟨clearX, clearY⟩ := clear
  induction alike with
  | nil => rfl
  | cons first rest ih =>
    rw [List.forall_mem_cons] at clearX clearY
    rw [eq_of_alike first clearX.1 clearY.1, ih clearX.2 clearY.2]

theorem EnumsFit.members_of_entries {g : Graph} (fit : g.EnumsFit) {a b : NodeId}
    {members : List Member} (isEnum : g.shape? b = some (.stringUnion members))
    (same : (g.shape? a).map Shape.enumEntries = (g.shape? b).map Shape.enumEntries) :
    ∃ others, g.shape? a = some (.stringUnion others) ∧
      others.map memberText = members.map memberText := by
  rw [isEnum, Option.map_some, Option.map_eq_some_iff] at same
  obtain ⟨s, shapeA, entries⟩ := same
  have label : s.label = "string-union" := by
    by_contra other
    rw [enumEntries_stringUnion, Shape.enumEntries, if_neg other] at entries
    cases entries
  obtain ⟨others, rfl⟩ := eq_stringUnion_of_label label
  rw [enumEntries_stringUnion, enumEntries_stringUnion, Option.some.injEq] at entries
  refine ⟨others, shapeA, flatMap_entry_inj ?_ ?_ entries⟩
  · exact List.forall_mem_map.mpr (fit a others shapeA)
  · exact List.forall_mem_map.mpr (fit b members isEnum)

section enums
variable {hash : Hash} {g : Graph} (sound : g.Sound)
include sound

theorem enumEntries_resolve (free : ∀ h, Begins hash g h → Collisionless hash h.prepared)
    {id : NodeId} (live : g.isLive id = true) : (g.shape? id).map Shape.enumEntries =
      (g.shape? ((g.consolidate hash).2.resolve id)).map Shape.enumEntries :=
  @view_resolve hash _ Shape.enumEntries (fun _ => True)
    (fun _ _ _ _ _ _ => enumEntries_of_entries) enumEntries_mapNodes g sound free
    (fun _ _ _ _ => trivial) id live

theorem resolve_eq_of_texts {a b : NodeId} (liveA : g.isLive a = true) (liveB : g.isLive b = true)
    {members others : List Member} (enumA : g.shape? a = some (.stringUnion others))
    (enumB : g.shape? b = some (.stringUnion members))
    (texts : others.map memberText = members.map memberText) :
    (g.consolidate hash).2.resolve a = (g.consolidate hash).2.resolve b := by
  have content : ∀ (d : NodeId → String) (members : List Member),
      contentEntries hash d (.stringUnion members) =
        (members.map memberText).flatMap (entry "member") := by
    intro d members
    rw [contentEntries, List.flatMap_map]
  refine resolve_eq_of_entries sound liveA liveB enumA enumB ?_
  intro d e f
  rw [shapeEntries_eq, shapeEntries_eq, Shape.mapNodes, Shape.mapNodes, content, content, texts]
  rfl

end enums

/-- An enum is merged exactly with the enums whose members read alike one by one, and its members
are alike those of the enum that stands for it. They are the same if no name has an equality sign
and no serialized text is empty. -/
theorem consolidate_members (hash : Hash) (ops : List Operation)
    (fit : (runAll hash .empty ops).EnumsFit)
    (free : ∀ h, Begins hash (runAll hash .empty ops) h → Collisionless hash h.prepared)
    {b : NodeId} (live : (runAll hash .empty ops).isLive b = true) {members : List Member}
    (isEnum : (runAll hash .empty ops).shape? b = some (.stringUnion members)) :
    let g := runAll hash .empty ops
    let g' := (g.consolidate hash).2
    (∃ kept, g'.shape? (g'.resolve b) = some (.stringUnion kept) ∧
        List.Forall₂ Member.Alike kept members ∧
        ((∀ m ∈ kept ++ members, m.Clear) → kept = members)) ∧
      ∀ a, g.isLive a = true → (g'.resolve a = g'.resolve b ↔
        ∃ others, g.shape? a = some (.stringUnion others) ∧
          List.Forall₂ Member.Alike others members) := by
  intro g g'
  have sound : g.Sound := (runAll_sound hash ops empty_sound (.of_empty rfl)).1
  have shrinks : Shrinks g (g.consolidate hash).1 g' := consolidate_shrinks hash sound
  have lt : b < g'.nodes.size := shrinks.size.symm ▸ ((isLive_iff g b).mp live).1
  have entries := @enumEntries_resolve hash g sound free b live
  constructor
  · obtain ⟨kept, shape, texts⟩ := fit.members_of_entries isEnum entries.symm
    have alike := forall₂_alike_iff.mpr texts
    refine ⟨kept, ?_, alike, eq_of_forall₂_alike alike⟩
    rw [consolidate_shape sound (shrinks.sound.isLive_resolve lt), shape]
    rfl
  · intro a liveA
    constructor
    · intro same
      have own := @enumEntries_resolve hash g sound free a liveA
      obtain ⟨others, shape, texts⟩ := fit.members_of_entries isEnum
        (own.trans ((congrArg (fun id => (g.shape? id).map Shape.enumEntries) same).trans
          entries.symm))
      exact ⟨others, shape, forall₂_alike_iff.mpr texts⟩
    · rintro ⟨others, shape, alike⟩
      exact resolve_eq_of_texts sound liveA live shape isEnum (forall₂_alike_iff.mp alike)

def Operation.enums (first second : List Member) : List Operation :=
  [.register { name := "First", shape := .stringUnion first },
    .register { name := "Second", shape := .stringUnion second }]

section enums
variable (hash : Hash) (first second : List Member)

theorem enums_redirects : (runAll hash .empty (enums first second)).redirects = {} := by cbv

theorem enums_shapes : (runAll hash .empty (enums first second)).nodes.toList.map Node.shape =
    [.stringUnion first, .stringUnion second] := by cbv

theorem enums_live (id : NodeId) (lt : id < 2) :
    (runAll hash .empty (enums first second)).isLive id = true := by
  have size : (runAll hash .empty (enums first second)).nodes.size = 2 := by
    simpa using congrArg List.length (enums_shapes hash first second)
  rw [isLive_iff, size, enums_redirects]
  exact ⟨lt, rfl⟩

theorem enums_shape (id : NodeId) : (runAll hash .empty (enums first second)).shape? id =
    [.stringUnion first, .stringUnion second][id]? := by
  rw [← enums_shapes hash first second, List.getElem?_map, shape?]
  simp

theorem enums_merged (texts : first.map memberText = second.map memberText) :
    ((runAll hash .empty (enums first second)).consolidate hash).2.resolve 0 =
      ((runAll hash .empty (enums first second)).consolidate hash).2.resolve 1 :=
  resolve_eq_of_texts (runAll_sound hash _ empty_sound (.of_empty rfl)).1
    (enums_live hash first second 0 (by decide)) (enums_live hash first second 1 (by decide))
    (enums_shape hash first second 0) (enums_shape hash first second 1) texts

theorem enums_fit (small : ∀ m ∈ first ++ second, (bytes (memberText m)).length < 256 ^ 8) :
    (runAll hash .empty (enums first second)).EnumsFit := by
  intro id members found
  rw [enums_shape] at found
  have either : members = first ∨ members = second := by
    simpa using List.mem_of_getElem? found
  rw [List.forall_mem_append] at small
  obtain rfl | rfl := either
  · exact small.1
  · exact small.2

end enums

/-- Two colours, one with a serialized text and one with a number. -/
def colours : List Member := [⟨"red", none, some "r"⟩, ⟨"blue", some 5, none⟩]

theorem consolidate_members_colours :
    let g := runAll spelled .empty (enums colours colours)
    let g' := (g.consolidate spelled).2
    g.EnumsFit ∧ g.isLive 1 = true ∧ g.shape? 1 = some (.stringUnion colours) ∧
      g'.shape? (g'.resolve 1) = some (.stringUnion colours) ∧ g'.resolve 0 = g'.resolve 1 := by
  have small : (colours ++ colours).all
      (fun m => decide ((bytes (memberText m)).length < 256 ^ 8)) = true := by decide +kernel
  have fit := enums_fit spelled colours colours (by simpa using small)
  have live := enums_live spelled colours colours
  have shape := enums_shape spelled colours colours
  have clear : ∀ m ∈ colours, m.Clear := by
    simp only [colours, List.forall_mem_cons, Member.Clear]
    decide
  have sound : (runAll spelled .empty (enums colours colours)).Sound :=
    (runAll_sound spelled _ empty_sound (.of_empty rfl)).1
  have shrinks := consolidate_shrinks spelled sound
  obtain ⟨⟨kept, shapeKept, -, same⟩, merged⟩ := consolidate_members spelled _ fit
    (fun h _ => collisionless_of_injective spelled_injective _) (live 1 (by decide)) (shape 1)
  have survives := shrinks.sound.isLive_resolve
    (shrinks.size.symm ▸ ((isLive_iff _ 1).mp (live 1 (by decide))).1)
  have clearKept : ∀ m ∈ kept ++ colours, m.Clear := by
    have moved := (consolidate_shape sound survives).symm.trans shapeKept
    obtain ⟨s, found, asKept⟩ := Option.map_eq_some_iff.mp moved
    rw [shape] at found
    obtain rfl : s = .stringUnion colours := by simpa using List.mem_of_getElem? found
    cases asKept
    exact List.forall_mem_append.mpr ⟨clear, clear⟩
  rw [same clearKept] at shapeKept
  refine ⟨fit, live 1 (by decide), shape 1, shapeKept, ?_⟩
  exact (merged 0 (live 0 (by decide))).mpr
    ⟨colours, shape 0, forall₂_alike_iff.mpr rfl⟩

/-- Enums are merged though a serialized text is missing in one and empty in the other, and though
an equality sign belongs to the serialized text in one and to the name in the other. -/
theorem merged_despite_members :
    [([⟨"on", none, none⟩], [⟨"on", none, some ""⟩]),
      ([⟨"on", none, some "=1"⟩], [⟨"on=", none, some "1"⟩])].Forall
      fun pair : List Member × List Member =>
      ((runAll Sha256.hex .empty (enums pair.1 pair.2)).consolidate Sha256.hex).2.resolve 0 =
        ((runAll Sha256.hex .empty (enums pair.1 pair.2)).consolidate Sha256.hex).2.resolve 1 ∧
      ¬ ∃ members, (runAll Sha256.hex .empty (enums pair.1 pair.2)).shape? 0 =
        some (.stringUnion members) ∧ (runAll Sha256.hex .empty (enums pair.1 pair.2)).shape? 1 =
        some (.stringUnion members) := by
  have differ (first second : List Member) (texts : first.map memberText = second.map memberText)
      (other : first ≠ second) :
      ((runAll Sha256.hex .empty (enums first second)).consolidate Sha256.hex).2.resolve 0 =
        ((runAll Sha256.hex .empty (enums first second)).consolidate Sha256.hex).2.resolve 1 ∧
      ¬ ∃ members, (runAll Sha256.hex .empty (enums first second)).shape? 0 =
        some (.stringUnion members) ∧ (runAll Sha256.hex .empty (enums first second)).shape? 1 =
        some (.stringUnion members) := by
    refine ⟨enums_merged Sha256.hex first second texts, ?_⟩
    rintro ⟨members, left, right⟩
    rw [enums_shape] at left right
    have ofFirst : first = members := by simpa using left
    have ofSecond : second = members := by simpa using right
    exact other (ofFirst.trans ofSecond.symm)
  exact ⟨differ _ _ (by decide) (by decide), differ _ _ (by decide) (by decide)⟩

end TypeLoom.Graph
