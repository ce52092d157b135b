import AstSchema.Store
import AstSchema.Validate
import AstSchema.Proofs.Consolidation
import AstSchema.Proofs.DefinitionsCodec
import AstSchema.Proofs.Validation
import AstSchema.Proofs.Gates
import AstSchema.Proofs.DeclarationOrder
import AstSchema.Proofs.Replay
import AstSchema.Proofs.TypeGrammar
import AstSchema.Proofs.NormalForm
import AstSchema.Proofs.Normalization
import AstSchema.Proofs.Json.Continuation
import AstSchema.Proofs.SelfDelimiting
import AstSchema.Proofs.CanonicalText
import AstSchema.Proofs.Revalidation
import AstSchema.Proofs.ClassExtension
import AstSchema.Proofs.FieldRow
import AstSchema.Proofs.RegistryCodec
import AstSchema.Proofs.RegistryExtension
import AstSchema.Proofs.Fingerprint
import AstSchema.Proofs.EqualityClasses
import AstSchema.Proofs.RawNode
import AstSchema.Proofs.Resolution
import AstSchema.Proofs.Refusal
import AstSchema.Proofs.ReportText
import AstSchema.Proofs.Loading
import AstSchema.Proofs.JoinedGates
import AstSchema.Proofs.JoinOrder
import AstSchema.Proofs.Sections
import AstSchema.Proofs.Missing
import AstSchema.Proofs.Mutation
import AstSchema.Proofs.DocumentOrder
import AstSchema.Proofs.Export
import AstSchema.Proofs.Nested
import AstSchema.Proofs.PlainText
import AstSchema.Proofs.Registration
import AstSchema.Proofs.HeapView
import AstSchema.Proofs.Ownership
import AstSchema.Proofs.Separate
import AstSchema.Proofs.Separate
