import DocQuery.Builder
import DocQuery.CommandLine
import DocQuery.Main
import DocQuery.Proofs.Outcome
import DocQuery.Proofs.Engine
import DocQuery.Proofs.Reading
import DocQuery.Proofs.Deferral
import DocQuery.Proofs.Meaning
import DocQuery.Proofs.Traversal
import DocQuery.Proofs.Like
import DocQuery.Proofs.Utf16
import DocQuery.Proofs.RegexUnits
import DocQuery.Proofs.Wildcards
import DocQuery.Proofs.FloatRange
import DocQuery.Proofs.Rounding
import DocQuery.Proofs.Spelling
import DocQuery.Proofs.Joins
import DocQuery.Proofs.Numbers
import DocQuery.Proofs.RangeLimit
import DocQuery.Proofs.Nesting
import DocQuery.Proofs.Records
import DocQuery.Proofs.Slots
import DocQuery.Proofs.RoundTrip
import DocQuery.Proofs.Normalisation
import DocQuery.Proofs.ValueLists
import DocQuery.Proofs.Integers
import DocQuery.Proofs.Events
import DocQuery.Proofs.Recovery
import DocQuery.Proofs.Grammar
import DocQuery.Proofs.Rendering
import DocQuery.Proofs.Shape
import DocQuery.Proofs.Contexts
import DocQuery.Proofs.Configuration
import DocQuery.Proofs.Nulls
import DocQuery.Proofs.Relevance
import DocQuery.Proofs.Culprits
import DocQuery.Proofs.Coercion
import DocQuery.Proofs.Rewrites
import DocQuery.Proofs.Following
import DocQuery.Proofs.Irrelevance
