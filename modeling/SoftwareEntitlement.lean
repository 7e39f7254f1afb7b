import SoftwareEntitlement.AcknowledgedUpdates
import SoftwareEntitlement.ApprovalExpiry
import SoftwareEntitlement.AtomicStore
import SoftwareEntitlement.AttemptOutcomes
import SoftwareEntitlement.Authorization
import SoftwareEntitlement.CertificatePins
import SoftwareEntitlement.CertificateStores
import SoftwareEntitlement.CertificateThumbprints
import SoftwareEntitlement.ColumnLayout
import SoftwareEntitlement.CommandLineProperties
import SoftwareEntitlement.CopyOnWrite
import SoftwareEntitlement.DotNetValues
import SoftwareEntitlement.EncryptionRequirement
import SoftwareEntitlement.EntitlementIsolation
import SoftwareEntitlement.EntitlementLedger
import SoftwareEntitlement.EntitlementOwnership
import SoftwareEntitlement.EntitlementStore
import SoftwareEntitlement.EnumParsing
import SoftwareEntitlement.EventOrder
import SoftwareEntitlement.ExceptionLogging
import SoftwareEntitlement.ExtraColumns
import SoftwareEntitlement.FoundCertificates
import SoftwareEntitlement.GenerateAndServe
import SoftwareEntitlement.GenerateCommand
import SoftwareEntitlement.GeneratedTokens
import SoftwareEntitlement.HandlerContracts
import SoftwareEntitlement.HandlerTotality
import SoftwareEntitlement.HandlerTraces
import SoftwareEntitlement.HttpRouting
import SoftwareEntitlement.HttpServer
import SoftwareEntitlement.HttpSessions
import SoftwareEntitlement.ImplementedObjects
import SoftwareEntitlement.InterleavedPrograms
import SoftwareEntitlement.IssuedTokens
import SoftwareEntitlement.JwtLibrary
import SoftwareEntitlement.JwtReference
import SoftwareEntitlement.JwtTokens
import SoftwareEntitlement.LeaseDurations
import SoftwareEntitlement.ListCertificates
import SoftwareEntitlement.LocalTraces
import SoftwareEntitlement.LoggedTables
import SoftwareEntitlement.LoggingOptions
import SoftwareEntitlement.NativeClient
import SoftwareEntitlement.NativeClientServed
import SoftwareEntitlement.NativeResponses
import SoftwareEntitlement.ParserTotality
import SoftwareEntitlement.PinMonotonicity
import SoftwareEntitlement.PinningSoundness
import SoftwareEntitlement.PostedRequests
import SoftwareEntitlement.PreorderVisits
import SoftwareEntitlement.PropertyErrors
import SoftwareEntitlement.PropertySetters
import SoftwareEntitlement.QueryEvaluation
import SoftwareEntitlement.ReferenceRuntime
import SoftwareEntitlement.ReleaseFinality
import SoftwareEntitlement.ReleaseOnce
import SoftwareEntitlement.RelyGuarantee
import SoftwareEntitlement.RequestHandlers
import SoftwareEntitlement.ResponseContract
import SoftwareEntitlement.ResultReduction
import SoftwareEntitlement.Results
import SoftwareEntitlement.RetryBounds
import SoftwareEntitlement.RetryLoops
import SoftwareEntitlement.SearchLoops
import SoftwareEntitlement.ServedRequests
import SoftwareEntitlement.ServerOptions
import SoftwareEntitlement.ServerRuns
import SoftwareEntitlement.ServerStartup
import SoftwareEntitlement.ServerWiring
import SoftwareEntitlement.SesclientNative
import SoftwareEntitlement.ShownCertificates
import SoftwareEntitlement.StoreClients
import SoftwareEntitlement.StoreHistory
import SoftwareEntitlement.StoreInvariants
import SoftwareEntitlement.StoreRefinement
import SoftwareEntitlement.SubmittedTokens
import SoftwareEntitlement.ThumbprintDecoding
import SoftwareEntitlement.TokenDisclosure
import SoftwareEntitlement.TokenParsing
import SoftwareEntitlement.TokenProperties
import SoftwareEntitlement.TokenRoundTrip
import SoftwareEntitlement.TokenVerification
import SoftwareEntitlement.TracedOutcomes
import SoftwareEntitlement.Traversals
import SoftwareEntitlement.UninterruptedRuns
import SoftwareEntitlement.UpdateInterference
import SoftwareEntitlement.UrlNormalisation
import SoftwareEntitlement.VerifyCommand
import SoftwareEntitlement.WireFormat
