import TypeLoom.Code.Lower
import TypeLoom.Code.Print
import TypeLoom.Digest.Sha256
import TypeLoom.Fact.Decode
import TypeLoom.Graph.Prune
import TypeLoom.Ingest.Declaration

/-! The whole way from facts to the text of a file: ingest, merge, prune, lower, print. -/
namespace TypeLoom.Conversion

/-- What stops a conversion. -/
inductive Error where
  | missingIdentity (cause : Graph.MissingIdentity)
  /-- The facts are no JSON or do not describe declarations. -/
  | facts
  /-- The settings cannot be read. -/
  | settings
deriving DecidableEq, Repr

structure Output where
  text : String
  findings : List Finding

/-- The graph of the facts with equal shapes merged and the rest pruned. -/
def buildWith (hash : Graph.Hash) (settings : Settings) (facts : List Fact) : Except Error Graph :=
  match Graph.empty.ingest settings facts with
  | (.error cause, _) => .error (.missingIdentity cause)
  | (.ok (), g) => .ok (g.consolidate hash).2.prune.2

def build (settings : Settings) (facts : List Fact) : Except Error Graph :=
  buildWith Sha256.hex settings facts

/-- The text of the file for a graph. -/
def fileText (settings : Settings) (g : Graph) : String :=
  (Code.lowerFile g settings).print

/-- Convert facts into a file. -/
def run (settings : Settings) (facts : List Fact) : Except Error Output := do
  let g ← build settings facts
  return ⟨fileText settings g, g.findings⟩

/-- Convert facts with default settings. -/
def convert (facts : List Fact) : Except Error String := do
  return (← run {} facts).text

def readFacts (text : String) : Except Error (List Fact) :=
  match Fact.read? text with
  | some facts => .ok facts
  | none => .error .facts

def readSettings (text : String) : Except Error Settings :=
  match Settings.read? text with
  | some settings => .ok settings
  | none => .error .settings

end TypeLoom.Conversion
