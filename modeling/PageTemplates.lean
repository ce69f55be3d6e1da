import PageTemplates.Host.EngineBuilder
import PageTemplates.Security.Policy
import PageTemplates.Tree.SnapshotJson
import PageTemplates.Proofs.Build.Bags
import PageTemplates.Proofs.Build.Provenance
import PageTemplates.Proofs.Build.Pruning
import PageTemplates.Proofs.Files.Confinement
import PageTemplates.Proofs.Markup.Denial
import PageTemplates.Proofs.Page.Staleness
import PageTemplates.Proofs.Build.PolicySoundness
import PageTemplates.Proofs.Build.EvaluatedOnce
import PageTemplates.Proofs.Build.ScopeIndependence
import PageTemplates.Proofs.Build.TypedWrites
import PageTemplates.Proofs.Page.CacheHistory
import PageTemplates.Proofs.Template.MemoHistory
import PageTemplates.Proofs.Tree.Traversal
import PageTemplates.Proofs.Page.IncludeChain
import PageTemplates.Proofs.Build.PlainTexts
import PageTemplates.Proofs.Template.Furnishing
import PageTemplates.Proofs.Tree.SnapshotRoundTrip
import PageTemplates.Proofs.Build.AttributeOrder
import PageTemplates.Proofs.Expression.Forms
import PageTemplates.Proofs.Expression.Variables
import PageTemplates.Proofs.Build.CallableWiring
import PageTemplates.Proofs.Build.TypedValues
import PageTemplates.Proofs.Expression.Recognition
import PageTemplates.Proofs.Page.Wrapping
import PageTemplates.Proofs.Page.Declarations
import PageTemplates.Proofs.Build.Collections
import PageTemplates.Proofs.Security.QualifiedDenial
import PageTemplates.Proofs.Template.Coercion
import PageTemplates.Proofs.Markup.LooseContent
