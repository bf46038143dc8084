import PathQuery.Ast.Alike
import PathQuery.Ast.Basic
import PathQuery.Ast.Builder
import PathQuery.Ast.Literal
import PathQuery.Ast.Named
import PathQuery.Ast.Nested
import PathQuery.Ast.Operator
import PathQuery.Ast.Part
import PathQuery.Ast.Same
import PathQuery.Ast.Spans
import PathQuery.Cardinality
import PathQuery.Compile.Attach
import PathQuery.Compile.Clause
import PathQuery.Compile.Context
import PathQuery.Compile.Error
import PathQuery.Compile.Invocation
import PathQuery.Compile.Lexicon
import PathQuery.Compile.Operation
import PathQuery.Compile.Path
import PathQuery.Compile.Qualify
import PathQuery.Compile.Query
import PathQuery.Compile.Statement
import PathQuery.Compile.Viewpoint
import PathQuery.Digest.Hex
import PathQuery.Digest.Xxh64
import PathQuery.Identity.Digest
import PathQuery.Identity.PathKey
import PathQuery.Identity.TypeId
import PathQuery.Ir.Arena
import PathQuery.Ir.Basic
import PathQuery.Ir.Mention
import PathQuery.Name
import PathQuery.Proofs.Cardinality.FurtherIn
import PathQuery.Proofs.Cardinality.Order
import PathQuery.Proofs.Cardinality.PathBounds
import PathQuery.Proofs.Cardinality.Recorded
import PathQuery.Proofs.Cardinality.Required
import PathQuery.Proofs.Cardinality.Subquery
import PathQuery.Proofs.Compile.Attachment
import PathQuery.Proofs.Compile.Clauses
import PathQuery.Proofs.Compile.Composed
import PathQuery.Proofs.Compile.Composition
import PathQuery.Proofs.Compile.Inference
import PathQuery.Proofs.Compile.LiteralSets
import PathQuery.Proofs.Compile.Operators
import PathQuery.Proofs.Compile.SetsAndCalls
import PathQuery.Proofs.Compile.Sharing
import PathQuery.Proofs.Compile.Success
import PathQuery.Proofs.Compile.Syntax
import PathQuery.Proofs.Compile.Upholds
import PathQuery.Proofs.Correspondence.Basic
import PathQuery.Proofs.Correspondence.Beside
import PathQuery.Proofs.Correspondence.Growth
import PathQuery.Proofs.Correspondence.Operands
import PathQuery.Proofs.Correspondence.Paths
import PathQuery.Proofs.Correspondence.Statements
import PathQuery.Proofs.Correspondence.Steps
import PathQuery.Proofs.Correspondence.Syntax
import PathQuery.Proofs.Evolution.Statements
import PathQuery.Proofs.Evolution.Steps
import PathQuery.Proofs.Lead.Ahead
import PathQuery.Proofs.Lead.Blind
import PathQuery.Proofs.Lead.Operands
import PathQuery.Proofs.Lead.Paths
import PathQuery.Proofs.Lead.Syntax
import PathQuery.Proofs.Lead.Tracks
import PathQuery.Proofs.Names.Denotation
import PathQuery.Proofs.Names.Qualification
import PathQuery.Proofs.Names.Spelling
import PathQuery.Proofs.Operator.Arithmetic
import PathQuery.Proofs.Operator.Comparison
import PathQuery.Proofs.Operator.ElementOrder
import PathQuery.Proofs.Operator.Exchange
import PathQuery.Proofs.Operator.Hint
import PathQuery.Proofs.Operator.Operands
import PathQuery.Proofs.Operator.SetLiteral
import PathQuery.Proofs.Path.Abbreviation
import PathQuery.Proofs.Path.Correlation
import PathQuery.Proofs.Path.Fingerprint
import PathQuery.Proofs.Path.Pointers
import PathQuery.Proofs.Path.Substitution
import PathQuery.Proofs.Schema.Admission
import PathQuery.Proofs.Schema.Build
import PathQuery.Proofs.Schema.CommonType
import PathQuery.Proofs.Schema.Contents
import PathQuery.Proofs.Schema.Declaration
import PathQuery.Proofs.Schema.Description
import PathQuery.Proofs.Schema.Extension
import PathQuery.Proofs.Schema.Hierarchy
import PathQuery.Proofs.Schema.Join
import PathQuery.Proofs.Schema.Kinds
import PathQuery.Proofs.Schema.ObjectRoot
import PathQuery.Proofs.Schema.Order
import PathQuery.Proofs.Schema.Rearrangement
import PathQuery.Proofs.Schema.Redeclaration
import PathQuery.Proofs.Schema.References
import PathQuery.Proofs.Schema.ScalarRoots
import PathQuery.Proofs.Schema.Supertypes
import PathQuery.Proofs.Schema.WellFormed
import PathQuery.Proofs.Search.Queue
import PathQuery.Proofs.Search.Walks
import PathQuery.Proofs.Session.Bindings
import PathQuery.Proofs.Session.Frames
import PathQuery.Proofs.Session.Reachable
import PathQuery.Proofs.Session.SameType
import PathQuery.Proofs.Session.Seal
import PathQuery.Proofs.Span.Citation
import PathQuery.Proofs.Span.Clauses
import PathQuery.Proofs.Span.Errors
import PathQuery.Proofs.Span.Irrelevance
import PathQuery.Proofs.Statement.Closed
import PathQuery.Proofs.Statement.Constraints
import PathQuery.Proofs.Statement.Demands
import PathQuery.Proofs.Statement.ImplicitLimit
import PathQuery.Proofs.Statement.Isolation
import PathQuery.Proofs.Statement.Lexical
import PathQuery.Proofs.Statement.Parts
import PathQuery.Proofs.Statement.Shape
import PathQuery.Proofs.Statement.Soundness
import PathQuery.Proofs.Statement.Traversal
import PathQuery.Proofs.Statement.Visits
import PathQuery.Proofs.Store.Ancestry
import PathQuery.Proofs.Store.CanonicalPath
import PathQuery.Proofs.Store.Growth
import PathQuery.Proofs.Store.Invariant
import PathQuery.Proofs.Store.Multiplicity
import PathQuery.Proofs.Store.Placement
import PathQuery.Proofs.Store.Typing
import PathQuery.Proofs.Tandem.Collisions
import PathQuery.Proofs.Tandem.Follows
import PathQuery.Proofs.Tandem.Mirrored
import PathQuery.Proofs.Tandem.Operands
import PathQuery.Proofs.Tandem.Paths
import PathQuery.Proofs.Tandem.Statements
import PathQuery.Proofs.Tandem.Syntax
import PathQuery.Schema.Builtin
import PathQuery.Schema.Catalog
import PathQuery.Schema.Conversion
import PathQuery.Schema.Entry
import PathQuery.Schema.Registry
import PathQuery.ScopeTree
import PathQuery.Search
import PathQuery.Session
import PathQuery.Span
import PathQuery.Table
