import Verixa.Encoding.SelfDelimiting
import Verixa.Encoding.Text
import Verixa.Collections.OrderedMap
import Verixa.Collections.KeyedMap
import Verixa.Concurrency.Run
import Verixa.Concurrency.Program
import Verixa.Concurrency.Solo
import Verixa.Concurrency.Journal
import Verixa.SharedKernel.IsoDate
import Verixa.SharedKernel.Number
import Verixa.Encoding.PlainValue
import Verixa.SharedKernel.Record
import Verixa.SharedKernel.Errors
import Verixa.SharedKernel.RateLimiting
import Verixa.Identity.User
import Verixa.Credentials.Credential
import Verixa.Credentials.CredentialStore
import Verixa.Credentials.CredentialUseCases
import Verixa.Credentials.SoloCalls
import Verixa.Credentials.CredentialWork
import Verixa.Credentials.CredentialSafety
import Verixa.Credentials.ResetRedemption
import Verixa.Credentials.ResetFinality
import Verixa.Credentials.ResetRejection
import Verixa.Credentials.PasswordChange
import Verixa.Credentials.LockoutCount
import Verixa.Credentials.AccountEnumeration
import Verixa.Audit.AuditMetadata
import Verixa.Audit.AuditLogEntry
import Verixa.Audit.ChainIntegrity
import Verixa.Audit.AuditLogRepository
import Verixa.Audit.RecordAuditEvent
import Verixa.Audit.BatchedAuditWriter
import Verixa.Audit.BatchedAuditWriterLaws
import Verixa.Audit.BatchedAuditWriterShutdown
import Verixa.Audit.VerifyAuditChain
import Verixa.Audit.VerifyWindow
import Verixa.Audit.AnchorAuditLog
import Verixa.Audit.AuditLogEntryMapper
import Verixa.Audit.ConcurrentRecording
import Verixa.Sessions.Session
import Verixa.Sessions.SessionStore
import Verixa.Sessions.SessionUseCases
import Verixa.Sessions.SessionWork
import Verixa.Sessions.SessionSafety
import Verixa.Sessions.RefreshRotation
import Verixa.Sessions.RevocationPersistence
import Verixa.Sessions.RevocationReach
import Verixa.Sessions.SessionLimit
import Verixa.Mfa.MfaChallenge
import Verixa.Mfa.ChallengeConsumption
import Verixa.Authorization.Permission
import Verixa.Authorization.Role
import Verixa.Authorization.PermissionChecker
import Verixa.Authorization.RequirePermission
import Verixa.Authorization.PermissionAgreement
import Verixa.Authorization.PolicyCache
import Verixa.Authorization.InMemoryPolicyCache
import Verixa.Authorization.RedisPolicyCache
import Verixa.Authorization.PolicyCacheCorrectness
import Verixa.Authorization.Condition
import Verixa.Authorization.PolicyLinter
import Verixa.Authorization.PolicyLinterConflicts
import Verixa.Authorization.Policy
import Verixa.Authorization.PolicyMapper
import Verixa.Authorization.PolicyRepositories
import Verixa.Verification.VerificationRequest
import Verixa.Verification.ReviewUseCases
import Verixa.Verification.DecisionFinality
import Verixa.Encoding.Bytes
import Verixa.Encoding.PlainText
import Verixa.SharedKernel.Returning
import Verixa.Mfa.Cbor
import Verixa.Mfa.WebAuthnVerifiers
import Verixa.Mfa.MalformedClientData
import Verixa.Verification.VerificationRequestMapper
import Verixa.Verification.VerificationLifecycle
import Verixa.Identity.UserLifecycle
import Verixa.Identity.UserUseCases
import Verixa.Identity.Suspension
import Verixa.Identity.ProfileEdits
import Verixa.Api.Idempotency
import Verixa.Api.DuplicateRequests
import Verixa.Api.FirstResponse
import Verixa.Api.PrincipalSeparation
import Verixa.Audit.RecordedContent
import Verixa.Encoding.Csv
import Verixa.Audit.AuditExportEncoding
import Verixa.Audit.CsvExport
import Verixa.Audit.VerbatimMetadata
import Verixa.Audit.VerifiedRange
import Verixa.Encoding.Occurrence
import Verixa.Audit.EscapedText
import Verixa.Audit.LinePerEntry
import Verixa.Collections.KeysetPaging
import Verixa.SharedKernel.NumberArithmetic
import Verixa.Audit.AuditReading
import Verixa.Audit.CompletePaging
import Verixa.Collections.Latch
import Verixa.StellarAnchor.FundingAlerts
import Verixa.SharedKernel.BruteForce
import Verixa.SharedKernel.ConcurrentFailures
import Verixa.SharedKernel.BruteForceBudget
import Verixa.Encoding.Utf8
import Verixa.Mfa.CborEncoding
import Verixa.Mfa.CborRoundTrip
import Verixa.Encoding.CodeUnits
import Verixa.Encoding.Base64Url
import Verixa.Encoding.Json
import Verixa.Encoding.JsonRoundTrip
import Verixa.Sessions.JwtTokenSigner
import Verixa.Sessions.AccessTokenAuthenticity
import Verixa.Encoding.Bits
import Verixa.Mfa.Base32
import Verixa.Arithmetic.Binary64
import Verixa.Mfa.Rfc6238TotpAlgorithm
import Verixa.Mfa.CborReaderBounds
import Verixa.Encoding.CborItem
import Verixa.Mfa.CborItemReading
import Verixa.Mfa.CborReaderFidelity
import Verixa.Mfa.CborWrittenItems
import Verixa.Mfa.CborIntegers
import Verixa.Mfa.CborCanonicity
import Verixa.Mfa.AttestationParsing
import Verixa.Mfa.MfaMethod
import Verixa.Mfa.LockoutSchedules
import Verixa.Concurrency.Evaluation
import Verixa.Mfa.TotpUseCases
import Verixa.Mfa.StorageFailure
import Verixa.Mfa.AcceptedSteps
import Verixa.Credentials.PasswordHistory
import Verixa.Verification.ReviewLeases
import Verixa.Verification.SqlClaims
import Verixa.Authorization.PermissionInclusion
import Verixa.Authorization.MissingAttributes
import Verixa.Authorization.PolicyStorage
import Verixa.Authorization.LoadedConditions
import Verixa.Mfa.TotpVerifiers
import Verixa.Api.RequestFingerprint
import Verixa.Authorization.AttributeObjects
import Verixa.Authorization.AttributeLookups
import Verixa.Encoding.PlainJson
import Verixa.Authorization.Operators
import Verixa.Authorization.StructuralEquality
import Verixa.Authorization.AttributeResolutionPipeline
import Verixa.Authorization.MergePrecedence
import Verixa.Collections.OffsetPaging
import Verixa.Verification.ReviewQueue
import Verixa.Verification.QueuePaging
import Verixa.Authorization.ConditionEquality
import Verixa.Audit.EscapeRoundTrip
import Verixa.StellarAnchor.StroopAmounts
import Verixa.Collections.FixedWindow
import Verixa.Api.RateLimit
import Verixa.StellarAnchor.FundingGuard
import Verixa.Encoding.Uri
import Verixa.Api.HttpsRedirect
import Verixa.Sessions.CookieConfig
import Verixa.Notifications.NotificationTemplate
import Verixa.Notifications.TemplateRegistry
import Verixa.Mfa.WebAuthnCeremonies
import Verixa.Mfa.ChallengeRedemption
import Verixa.Mfa.SignCounters
import Verixa.Authorization.AdminRoles
import Verixa.Authorization.SystemRoles
import Verixa.Authorization.AuthorizedWrites
import Verixa.Concurrency.Throwing
import Verixa.Encoding.JsonArray
import Verixa.Mfa.BackupCodes
import Verixa.Mfa.BackupCodeRedemption
import Verixa.Collections.Deadlines
import Verixa.Sessions.RevocationLists
import Verixa.SharedKernel.Validation
import Verixa.Authorization.PolicySimulation
import Verixa.Authorization.PolicyFixtures
import Verixa.Authorization.PolicySimulateCommand
import Verixa.Concurrency.SideBySide
import Verixa.StellarAnchor.HashAnchors
import Verixa.Audit.ConfirmedAnchors
