import SovereignMobile.Quic.SequenceNumbers
import SovereignMobile.Quic.SessionManager
import SovereignMobile.Messaging.Announced
import SovereignMobile.Messaging.SendRatchet
import SovereignMobile.Quic.AuthEncoding
import SovereignMobile.Payments.Nonces
import SovereignMobile.Messaging.Receipts
import SovereignMobile.Messaging.PendingDecrypt
import SovereignMobile.Messaging.Ingest
import SovereignMobile.Pouw.BatchTimer
import SovereignMobile.Pouw.RetryRuns
import SovereignMobile.Messaging.StoreRows
import SovereignMobile.Messaging.RowsKept
import SovereignMobile.Messaging.FailedLoads
import SovereignMobile.Messaging.Isolation
import SovereignMobile.Inbound.Streams
import SovereignMobile.Quic.SessionClose
import SovereignMobile.Messaging.Deletion
import SovereignMobile.Codec.StatusCodes
import SovereignMobile.Messaging.Recovery
import SovereignMobile.Quic.Bootstrap
import SovereignMobile.Signing.Amounts
import SovereignMobile.Auth.Registration
import SovereignMobile.Auth.SignInLimit
import SovereignMobile.Auth.Passwords
import SovereignMobile.Auth.Switches
import SovereignMobile.Pouw.UsableChallenge
import SovereignMobile.Quic.ClientTables
import SovereignMobile.Quic.DialTargets
import SovereignMobile.Auth.OpaqueDisposal
import SovereignMobile.Auth.UsableIdentity
import SovereignMobile.Identity.ClosedWhileUsed
import SovereignMobile.Pouw.SignedByNamed
import SovereignMobile.Pouw.RequestRate
import SovereignMobile.Pouw.TokenIndices
import SovereignMobile.Codec.Framings
import SovereignMobile.Inbound.Delivery
import SovereignMobile.Inbound.ReopenCap
import SovereignMobile.Quic.DnsAnswers
import SovereignMobile.Quic.RoutedIdentity
import SovereignMobile.Auth.LoadingFlag
import SovereignMobile.Auth.Lockout
import SovereignMobile.Auth.RewardTriggers
import SovereignMobile.Dns.DomainValidation
import SovereignMobile.Payments.Prices
import SovereignMobile.Web4.BridgeScript
import SovereignMobile.Web4.Resolution
import SovereignMobile.Web4.ServedBlobs
import SovereignMobile.Pouw.SubmissionResults
import SovereignMobile.Pouw.ChallengeFormats
import SovereignMobile.Identity.ExportedIdentity
import SovereignMobile.Payments.AcceptedTransfers
import SovereignMobile.Auth.BrowserAuth
import SovereignMobile.Hooks.AddressBook
import SovereignMobile.Hooks.PersistedState
import SovereignMobile.Quic.SessionPrefix
import SovereignMobile.Hooks.OracleData
import SovereignMobile.Hooks.Balances
import SovereignMobile.Auth.SingleFlight
import SovereignMobile.Pouw.Difficulty
import SovereignMobile.Quic.UIntEncoders
import SovereignMobile.Messaging.HexBase64
import SovereignMobile.Oracle.Pool
