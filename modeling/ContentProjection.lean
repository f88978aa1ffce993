import ContentProjection.Application
import ContentProjection.CommandLine.Execution
import ContentProjection.Main
import ContentProjection.Proofs.AliasTable
import ContentProjection.Proofs.CallHistory
import ContentProjection.Proofs.Cardinality
import ContentProjection.Proofs.DepthBudget
import ContentProjection.Proofs.DumpOrder
import ContentProjection.Proofs.Expansion
import ContentProjection.Proofs.ListedLookups
import ContentProjection.Proofs.ListedPages
import ContentProjection.Proofs.Lookups
import ContentProjection.Proofs.PublishedAnswers
import ContentProjection.Proofs.QueryMeaning
import ContentProjection.Proofs.ReferenceListings
import ContentProjection.Proofs.RouteRegistration
import ContentProjection.Proofs.SplitSkus
import ContentProjection.Proofs.ProductCounts
import ContentProjection.Proofs.AllowedFields
import ContentProjection.Proofs.ShownHeader
import ContentProjection.Proofs.SortOrder
import ContentProjection.Proofs.StorageFailures
import ContentProjection.Proofs.StoredHeader
import ContentProjection.Proofs.TermHeader
import ContentProjection.Proofs.TypeRestriction
import ContentProjection.Proofs.UuidIndex
import ContentProjection.Proofs.ListBounds
import ContentProjection.Proofs.TextOrder
import ContentProjection.Proofs.ListingOrder
import ContentProjection.Proofs.Routing
import ContentProjection.Proofs.ResponseForms
import ContentProjection.Proofs.TermOrder
import ContentProjection.Proofs.ReferenceKinds
import ContentProjection.Proofs.IdeaGallery
import ContentProjection.Proofs.Refusals
import ContentProjection.Proofs.NumericParameters
import ContentProjection.Proofs.SchemaReads
import ContentProjection.Proofs.ShownDates
import ContentProjection.Proofs.AspectRatios
import ContentProjection.Proofs.ResolvedTokens
import ContentProjection.Proofs.LeadingIntegers
import ContentProjection.Proofs.EffectiveSettings
import ContentProjection.Proofs.CarriedIds
import ContentProjection.Proofs.FloatFields
