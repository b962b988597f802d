import Limitmark.Foundations.Run
import Limitmark.Foundations.Table
import Limitmark.Foundations.Text
import Limitmark.Foundations.Json
import Limitmark.Foundations.JsonRoundTrip
import Limitmark.Foundations.JsonCoercion
import Limitmark.Foundations.Bucket
import Limitmark.Foundations.Rounding
import Limitmark.Foundations.Number
import Limitmark.Defense.Vocabulary
import Limitmark.Defense.Bytes
import Limitmark.Lanes.Decision
import Limitmark.Lanes.TokenBucket
import Limitmark.Lanes.NumberBucket
import Limitmark.Lanes.UseLedger
import Limitmark.Lanes.CreditFilter
import Limitmark.Lanes.CreditGenerations
import Limitmark.Lanes.JourneyLanes
import Limitmark.Lanes.CreditBound
import Limitmark.Lanes.LedgerBound
import Limitmark.Lanes.Isolation
import Limitmark.Ledger.Events
import Limitmark.Ledger.BucketAudit
import Limitmark.Foundations.Automaton
import Limitmark.Ledger.Lifecycle
import Limitmark.Ledger.L2Lifecycle
import Limitmark.Ledger.Lineage
import Limitmark.Ledger.NoBypass
import Limitmark.External.ExternalReducer
import Limitmark.External.ReducerBounds
import Limitmark.External.ReducerRequests
import Limitmark.External.ReducerBooks
import Limitmark.External.ReducerJoin
import Limitmark.External.ReducerConfluence
import Limitmark.Lanes.BucketDecisions
import Limitmark.Foundations.Cells
import Limitmark.Oidc.BoundedJwks
import Limitmark.Oidc.JwksRun
import Limitmark.Plane.Composer
import Limitmark.Plane.ComposerCalls
import Limitmark.Plane.ComposerRun
import Limitmark.Plane.L2Stage
import Limitmark.Plane.StageDecision
import Limitmark.Plane.StageAccounting
import Limitmark.Plane.Ingress
import Limitmark.Plane.Front
import Limitmark.Plane.Stories
import Limitmark.Plane.StoryRules
import Limitmark.Plane.FrontStream
import Limitmark.Plane.CleanStream
import Limitmark.Hop.SemanticRequest
import Limitmark.Hop.Base64url
import Limitmark.Hop.HopProof
import Limitmark.Hop.ReplayGuard
import Limitmark.Hop.ReplayCounters
import Limitmark.Hop.ReplayRun
import Limitmark.Hop.Admission
import Limitmark.Hop.Verified
import Limitmark.Hop.VerifierRun
import Limitmark.Hop.SingleAdmission
import Limitmark.Hop.RestartFence
import Limitmark.Hop.ProofCodec
import Limitmark.Hop.Approval
import Limitmark.Hop.Issuance
import Limitmark.Hop.CallHistory
import Limitmark.Hop.HopChain
import Limitmark.Hop.ChainDelivery
import Limitmark.Origin.Boundary
import Limitmark.Origin.BoundaryRun
import Limitmark.Origin.Resolution
import Limitmark.Foundations.Checks
import Limitmark.Foundations.RollingWindow
import Limitmark.Ingress.Protocol
import Limitmark.Ingress.IngressPayload
import Limitmark.Ingress.AdmissionRpc
import Limitmark.Authority.Storage
import Limitmark.Authority.Decisions
import Limitmark.Authority.Releases
import Limitmark.Authority.OperatorCommand
import Limitmark.Authority.AuthorityRun
import Limitmark.Authority.Limits
import Limitmark.Authority.Nonces
import Limitmark.Authority.DecisionAtomicity
import Limitmark.Authority.Permits
import Limitmark.Authority.ReleaseTable
import Limitmark.Authority.Receipts
import Limitmark.Authority.ResultStatement
import Limitmark.Authority.Attestation
import Limitmark.Authority.Attested
import Limitmark.Authority.StrictJson
import Limitmark.Authority.AttestationCodec
import Limitmark.Authority.AttestationLaws
import Limitmark.Authority.AttestationCanonical
import Limitmark.Foundations.Journal
import Limitmark.Mailbox.SealedArtifact
import Limitmark.Mailbox.DispatchGuard
import Limitmark.Mailbox.AtMostOnce
import Limitmark.Mailbox.Processor
import Limitmark.Mailbox.SignedResults
import Limitmark.Foundations.Rows
import Limitmark.Inquiries.Schema
import Limitmark.Inquiries.Outbox
import Limitmark.Inquiries.OutboxLease
import Limitmark.Inquiries.OutboxProcessor
import Limitmark.Inquiries.OutboxBudget
import Limitmark.Inquiries.StatusWorkflow
import Limitmark.Inquiries.AdminMutations
import Limitmark.Inquiries.AdminLog
import Limitmark.Inquiries.InquiryCreation
import Limitmark.Inquiries.IdempotentCreation
import Limitmark.PublicInquiry.AdmissionService
import Limitmark.PublicInquiry.Flow
import Limitmark.PublicInquiry.FlowHistory
import Limitmark.PublicInquiry.SinglePersistence
import Limitmark.Foundations.Lists
import Limitmark.Foundations.AddressText
import Limitmark.Ingress.ClientAddress
import Limitmark.Plane.ShapeGate
import Limitmark.PublicInquiry.FormBody
import Limitmark.PublicInquiry.FormToken
import Limitmark.PublicInquiry.GateForm
import Limitmark.Foundations.JsonGrammar
import Limitmark.Foundations.JsonReader
import Limitmark.Foundations.JsonScanners
import Limitmark.Foundations.JsonTokens
import Limitmark.Foundations.JsonAgreement
import Limitmark.Authority.StrictJsonText
import Limitmark.Oidc.UniqueMembers
import Limitmark.Field.GeneratorReport
import Limitmark.Field.Reconcile
import Limitmark.Field.ProcNet
import Limitmark.Field.ExposureProof
import Limitmark.Field.FieldState
import Limitmark.Field.FieldSequence
import Limitmark.Load.ClosedLoop
import Limitmark.Load.ClosedLoopBounds
import Limitmark.Load.Engine
import Limitmark.Load.EngineBounds
import Limitmark.Ledger.Penetration
import Limitmark.Ledger.EventChannel
import Limitmark.Ledger.Collector
import Limitmark.Ledger.CollectorBounds
import Limitmark.Ledger.Completeness
