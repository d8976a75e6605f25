import TypeLoom.Conversion
import TypeLoom.Fact.Encode
import TypeLoom.Proofs.Digests
import TypeLoom.Proofs.Merging
import TypeLoom.Proofs.Consolidation
import TypeLoom.Proofs.Operations
import TypeLoom.Proofs.Bisimulation
import TypeLoom.Proofs.Registration
import TypeLoom.Proofs.Resolution
import TypeLoom.Proofs.Ingestion
import TypeLoom.Proofs.Decision
import TypeLoom.Proofs.Survivors
import TypeLoom.Proofs.MergedParameters
import TypeLoom.Proofs.TypeUses
import TypeLoom.Proofs.Declarations
import TypeLoom.Proofs.DeclarationOrder
import TypeLoom.Proofs.Permanence
import TypeLoom.Proofs.Isomorphism
import TypeLoom.Proofs.FreshNames
import TypeLoom.Proofs.Growth
import TypeLoom.Proofs.Moves
import TypeLoom.Proofs.Calm
import TypeLoom.Proofs.UseMoves
import TypeLoom.Proofs.IngestSteps
import TypeLoom.Proofs.DisplayNames
import TypeLoom.Proofs.Retention
import TypeLoom.Proofs.NameRestoration
import TypeLoom.Proofs.DeclaredNames
import TypeLoom.Proofs.FileClosure
import TypeLoom.Proofs.Visibility
import TypeLoom.Proofs.Provenance
import TypeLoom.Proofs.ParameterScopes
import TypeLoom.Proofs.Nullability
import TypeLoom.Proofs.Termination
import TypeLoom.Proofs.VisibleNames
import TypeLoom.Proofs.IdentityKeys
import TypeLoom.Proofs.KeyUsurpation
import TypeLoom.Proofs.SourceLines
import TypeLoom.Proofs.Lexing
import TypeLoom.Proofs.PrintedTokens
import TypeLoom.Proofs.LexicalContexts
import TypeLoom.Proofs.Reachability
import TypeLoom.Proofs.RoundTrip
import TypeLoom.Proofs.OmittedArguments
import TypeLoom.Proofs.EnumValues
import TypeLoom.Proofs.SharedIdentities
import TypeLoom.Proofs.WritingStates
import TypeLoom.Proofs.BaseTypes
import TypeLoom.Proofs.LiteralDisplay
import TypeLoom.Proofs.MergedEnums
import TypeLoom.Proofs.ConstantTypes
import TypeLoom.Proofs.TypeIngest
import TypeLoom.Proofs.ConstantFields
import TypeLoom.Proofs.BracketedTexts
import TypeLoom.Proofs.SpelledWords
import TypeLoom.Proofs.EscapedTexts
import TypeLoom.Proofs.PascalNames
import TypeLoom.Proofs.MemberNames
import TypeLoom.Proofs.Rewiring
import TypeLoom.Proofs.NameSearch
import TypeLoom.Proofs.Places
import TypeLoom.Proofs.NamePlaces
import TypeLoom.Proofs.ConservedText
import TypeLoom.Proofs.LiteralPlaces
import TypeLoom.Proofs.LiteralErrors
import TypeLoom.Proofs.FileTypes
