import MmlLookup.Main
import MmlLookup.Session
import MmlLookup.Proofs.Loading
import MmlLookup.Proofs.Sweep
import MmlLookup.Proofs.Reached
import MmlLookup.Proofs.InstrumentSearch
import MmlLookup.Proofs.Agreement
import MmlLookup.Proofs.Bounded
import MmlLookup.Proofs.Resolution
import MmlLookup.Proofs.VariableSearch
import MmlLookup.Proofs.Pruning
import MmlLookup.Proofs.Coherence
import MmlLookup.Proofs.Spelling
import MmlLookup.Proofs.Asking
import MmlLookup.Proofs.Escaping
import MmlLookup.Proofs.BelowAnchor
import MmlLookup.Proofs.Unsaved
import MmlLookup.Proofs.Canonical
import MmlLookup.Proofs.Questions
import MmlLookup.Proofs.Lockstep
import MmlLookup.Proofs.Expansion
import MmlLookup.Proofs.ReadingOrder
import MmlLookup.Proofs.ExitCode
import MmlLookup.Proofs.OwnDefinition
import MmlLookup.Proofs.Comparison
import MmlLookup.Proofs.DefinitionLines
import MmlLookup.Proofs.DirectiveLines
import MmlLookup.Proofs.Escapes
import MmlLookup.Proofs.TokenTexts
import MmlLookup.Proofs.Positional
import MmlLookup.Proofs.Formatting
import MmlLookup.Proofs.LineEndings
import MmlLookup.Proofs.LineAccess
