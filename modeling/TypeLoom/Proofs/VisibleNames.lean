import Mathlib.Data.List.TakeWhile
import TypeLoom.Conversion
import TypeLoom.Proofs.IngestSteps

/-! Whatever stands in them, facts whose type declarations have names can be converted. The names of
nodes are names of declarations, names made up with a suffix, fixed names, and changed names, and
none of these is blank, so no node is ever refused for want of a name. -/
namespace TypeLoom

namespace Text

theorem trim_eq_nil_iff (text : List Char) : trim text = [] ↔ isBlankText text = true := by
  have blank (rest : List Char) : rest.dropWhile isBlank = [] ↔ rest.all isBlank = true := by
    rw [List.dropWhile_eq_nil_iff, List.all_eq_true]
  rw [trim, trimEnd, List.reverse_eq_nil_iff, blank, List.all_reverse, trimStart, isBlankText]
  constructor
  · intro all
    rw [← List.takeWhile_append_dropWhile (p := isBlank) (l := text), List.all_append, all,
      List.all_takeWhile, Bool.true_and]
  · intro all
    rw [(blank text).mpr all, List.all_nil]

end Text

namespace Graph

theorem visible_durable : Durable fun node => Text.isBlankText node.name.toList = false where
  primitive kind := by cases kind <;> decide
  constants _ := show Text.isBlankText constantsKey.toList = false by decide
  placed placed := placed.visible
  reshape _ visible := visible

end Graph

namespace Ingest
open TypeLoom.Graph TypeLoom.Fact

/-- Wherever an ingest has got to, any declaration can be built, with those under way left out or
not. A failure would be noticed even where the search for an enum passes over it. -/
theorem declaration_ok {c : Context} (named : c.Named) {frames : List Frame} {s : State}
    (moves : Moves c ⟨[], { graph := .empty }⟩ ⟨frames, s⟩) (level : Nat) (pending : List Nat)
    (place : Nat) :
    ∃ found s', (declaration c level pending place).run.run s = (.ok found, s') := by
  have calm := declaration_calm c level pending frames s place (moves.valid (valid_empty c))
  cases outcome : (declaration c level pending place).run.run s with
  | mk result s' =>
    cases result with
    | ok found => exact ⟨found, s', rfl⟩
    | error e => exact absurd named (calm.2.2 e (by rw [outcome]))

theorem ingest_ok {settings : Settings} {facts : List Fact}
    (named : Context.Named ⟨settings, facts⟩) :
    (Graph.empty.ingest settings facts).1 = .ok () := by
  rw [ingest_eq]
  cases outcome : (ingestion settings facts).1 with
  | ok result => rfl
  | error e => exact absurd named ((ingestion_moves settings facts).2 e outcome)

end Ingest

namespace Conversion
open TypeLoom.Graph TypeLoom.Ingest

theorem buildWith_ok (hash : Hash) {settings : Settings} {facts : List Fact}
    (ingested : (Graph.empty.ingest settings facts).1 = .ok ()) :
    buildWith hash settings facts =
      .ok ((Graph.empty.ingest settings facts).2.consolidate hash).2.prune.2 := by
  rw [buildWith]
  split
  · rename_i failed
    rw [failed] at ingested
    cases ingested
  · rename_i succeeded
    rw [succeeded]

/-- If the names of all type declarations have something left after trimming, then so have the names
of all nodes, no declaration is refused at any point of the ingest, and the conversion gives the
text and the findings of the graph that the ingest leads to. -/
theorem run_ok_of_named (settings : Settings) (facts : List Fact)
    (named : ∀ fact ∈ facts, fact.isType = true → Text.trim fact.name.toList ≠ []) :
    (∃ g, g = ((Graph.empty.ingest settings facts).2.consolidate Sha256.hex).2.prune.2 ∧
      build settings facts = .ok g ∧
      run settings facts = .ok ⟨fileText settings g, g.findings⟩) ∧
    (∀ node ∈ (Graph.empty.ingest settings facts).2.nodes, Text.trim node.name.toList ≠ []) ∧
    ∀ frames s, Moves ⟨settings, facts⟩ ⟨[], { graph := .empty }⟩ ⟨frames, s⟩ →
      ∀ level pending place, ∃ found s',
        (declaration ⟨settings, facts⟩ level pending place).run.run s = (.ok found, s') := by
  have visible (name : String) :
      Text.trim name.toList ≠ [] ↔ Text.isBlankText name.toList = false := by
    rw [Ne, Text.trim_eq_nil_iff, Bool.not_eq_true]
  have allNamed : Context.Named ⟨settings, facts⟩ :=
    fun fact mem registers => (visible _).mp (named fact mem (isType_of_registers registers))
  refine ⟨?_, fun node mem => ?_, fun frames s moves level pending place => ?_⟩
  · have built : build settings facts = .ok _ := buildWith_ok Sha256.hex (ingest_ok allNamed)
    refine ⟨_, rfl, built, ?_⟩
    rw [run, built]
    rfl
  · exact (visible _).mpr (visible_durable.steps (Graph.ingest_steps settings facts) node mem)
  · exact declaration_ok allNamed moves level pending place

/-- Inline types whose names are made up of a name without letters and an empty one, next to a
constant without a name. -/
def unlettered : List Fact := [
  .ofType "_" (.object [{ name := "", type := .tuple [.object [] [],
    .union [.stringLiteral " ", .stringLiteral ""], .object [] [⟨.string, .object [] []⟩]] }] []),
  .ofConstant " " "0"]

/-- The names made up there consist of their suffixes and little else. -/
theorem run_ok_of_named_unlettered :
    (Graph.empty.ingest {} unlettered).2.nodes.map Node.name = #["_", "Item1Class", "Item2Enum",
      "Item3Value", "Item3Dictionary", "Tuple", "number", "__constants__"] ∧
    (∃ g, g = ((Graph.empty.ingest {} unlettered).2.consolidate Sha256.hex).2.prune.2 ∧
      build {} unlettered = .ok g ∧ run {} unlettered = .ok ⟨fileText {} g, g.findings⟩) ∧
    (∀ node ∈ (Graph.empty.ingest {} unlettered).2.nodes, Text.trim node.name.toList ≠ []) ∧
    ∀ frames s, Moves ⟨{}, unlettered⟩ ⟨[], { graph := .empty }⟩ ⟨frames, s⟩ →
      ∀ level pending place, ∃ found s',
        (declaration ⟨{}, unlettered⟩ level pending place).run.run s = (.ok found, s') :=
  ⟨by decide +kernel, run_ok_of_named {} unlettered (by decide)⟩

end Conversion

end TypeLoom
