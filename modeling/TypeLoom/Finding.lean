/-! Findings: what a conversion has to say besides its result, without stopping for it. -/
namespace TypeLoom

namespace Finding

inductive Severity where
  /-- An expected outcome, such as a new name. -/
  | debug
  /-- Something was lost or guessed. -/
  | warning
deriving DecidableEq, Repr

inductive Kind where
  | unresolvedType
  | unresolvedInitializer
  | ambiguousUnion
  | renamed
  | lossyUnion
  | nonIntegralEnum
deriving DecidableEq, Repr

def Kind.all : List Kind :=
  [unresolvedType, unresolvedInitializer, ambiguousUnion, renamed, lossyUnion, nonIntegralEnum]

def Kind.severity : Kind → Severity
  | renamed | lossyUnion => .debug
  | unresolvedType | unresolvedInitializer | ambiguousUnion | nonIntegralEnum => .warning

def Kind.label : Kind → String
  | unresolvedType => "unresolved-type"
  | unresolvedInitializer => "unresolved-initializer"
  | ambiguousUnion => "ambiguous-union"
  | renamed => "renamed"
  | lossyUnion => "lossy-union"
  | nonIntegralEnum => "non-integral-enum"

def Severity.label : Severity → String
  | debug => "Debug"
  | warning => "Warning"

end Finding

structure Finding where
  kind : Finding.Kind
  /-- The declaration or member concerned. -/
  subject : String
  message : String
deriving DecidableEq, Repr

def Finding.severity (f : Finding) : Finding.Severity :=
  f.kind.severity

def Finding.text (f : Finding) : String :=
  "[" ++ f.kind.label ++ "] " ++ f.subject ++ ": " ++ f.message

def Finding.isWarning (f : Finding) : Bool :=
  f.severity == .warning

end TypeLoom
