import SchemaAlgebra.Algebra.Projection
import SchemaAlgebra.Definition.Reader
import SchemaAlgebra.LogFormat
import SchemaAlgebra.Stock
import SchemaAlgebra.Validation.Traversal
import SchemaAlgebra.Validation.Context
import SchemaAlgebra.Validation.Ledger
import SchemaAlgebra.Proofs.Magnitude
import SchemaAlgebra.Proofs.ShortestDecimal
import SchemaAlgebra.Proofs.NumberText
import SchemaAlgebra.Proofs.NumericRules
import SchemaAlgebra.Proofs.Domains
import SchemaAlgebra.Proofs.NumericText
import SchemaAlgebra.Proofs.CompactText
import SchemaAlgebra.Proofs.LiteralText
import SchemaAlgebra.Proofs.PlainNode
import SchemaAlgebra.Proofs.WellFormed
import SchemaAlgebra.Proofs.NodeText
import SchemaAlgebra.Proofs.Identity
import SchemaAlgebra.Proofs.Uncaptioned
import SchemaAlgebra.Proofs.Discrimination
import SchemaAlgebra.Proofs.Acceptance
import SchemaAlgebra.Proofs.Leaves
import SchemaAlgebra.Proofs.Canonical
import SchemaAlgebra.Proofs.Labels
import SchemaAlgebra.Proofs.ValidSpace
import SchemaAlgebra.Proofs.Computation
import SchemaAlgebra.Proofs.Entries
import SchemaAlgebra.Proofs.Composition
import SchemaAlgebra.Proofs.Growth
import SchemaAlgebra.Proofs.Meaning
import SchemaAlgebra.Proofs.Constraints
import SchemaAlgebra.Proofs.Folding
import SchemaAlgebra.Proofs.Intersections
import SchemaAlgebra.Proofs.StableSort
import SchemaAlgebra.Proofs.Unions
import SchemaAlgebra.Proofs.Matching
import SchemaAlgebra.Proofs.Conjunctions
import SchemaAlgebra.Proofs.Adoption
import SchemaAlgebra.Proofs.Reading
import SchemaAlgebra.Proofs.Reachable
import SchemaAlgebra.Proofs.Decision
import SchemaAlgebra.Proofs.Dispatch
import SchemaAlgebra.Proofs.Exactness
import SchemaAlgebra.Proofs.Explanation
import SchemaAlgebra.Proofs.Collections
import SchemaAlgebra.Proofs.Merging
import SchemaAlgebra.Proofs.Evidence
import SchemaAlgebra.Proofs.Interning
import SchemaAlgebra.Proofs.Answers
import SchemaAlgebra.Proofs.Sessions
import SchemaAlgebra.Proofs.Pruning
import SchemaAlgebra.Proofs.RoundTrip
import SchemaAlgebra.Proofs.Disjunctions
import SchemaAlgebra.Proofs.Multiples
import SchemaAlgebra.Proofs.Equality
import SchemaAlgebra.Proofs.Lockstep
import SchemaAlgebra.Proofs.Steady
import SchemaAlgebra.Proofs.SteadyUnions
import SchemaAlgebra.Proofs.Registration
import SchemaAlgebra.Proofs.References
import SchemaAlgebra.Proofs.Literals
import SchemaAlgebra.Proofs.Congruence
import SchemaAlgebra.Proofs.Rearrangement
import SchemaAlgebra.Proofs.Recall
import SchemaAlgebra.Proofs.LeafReading
import SchemaAlgebra.Proofs.Regrouping
import SchemaAlgebra.Proofs.Rereading
import SchemaAlgebra.Proofs.Captions
import SchemaAlgebra.Proofs.WritingOrder
import SchemaAlgebra.Proofs.Commutation
import SchemaAlgebra.Proofs.Subtyping
import SchemaAlgebra.Proofs.Shapes
import SchemaAlgebra.Proofs.Walks
import SchemaAlgebra.Proofs.Updates
import SchemaAlgebra.Proofs.Rewriting
import SchemaAlgebra.Proofs.SideBySide
import SchemaAlgebra.Proofs.Outputs
import SchemaAlgebra.Proofs.Projections
import SchemaAlgebra.Proofs.Absorption
import SchemaAlgebra.Proofs.Reduction
import SchemaAlgebra.Proofs.Depth
import SchemaAlgebra.Proofs.Conflicts
import SchemaAlgebra.Proofs.Exclusion
import SchemaAlgebra.Proofs.Recurrence
import SchemaAlgebra.Proofs.Kinds
import SchemaAlgebra.Proofs.Descendants
import SchemaAlgebra.Proofs.Coverage
import SchemaAlgebra.Proofs.Division
