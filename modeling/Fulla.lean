import Fulla.Model.Text
import Fulla.Access.Scopes
import Fulla.Conc.Table
import Fulla.Access.Clients
import Fulla.Conc.Prog
import Fulla.Conc.Tasks
import Fulla.Access.ScopeFanIn
import Fulla.Conc.Pool
import Fulla.Conc.Waiting
import Fulla.Conc.Txn
import Fulla.Org.Schema
import Fulla.Account.Tables
import Fulla.Model.Dto
import Fulla.Model.JsonText
import Fulla.Account.Services
import Fulla.Conc.Track
import Fulla.Account.LastAdmin
import Fulla.Account.Deletions
import Fulla.Account.Exchanges
import Fulla.Account.RoleAssignment
import Fulla.Identity.UserRows
import Fulla.Conc.Checks
import Fulla.Jwk.Base64Url
import Fulla.Jwk.JwkManager
import Fulla.Protocol.ClaimValues
import Fulla.Storage.Db
import Fulla.Storage.Memory
import Fulla.Storage.Postgres
import Fulla.Model.RedisFormat
import Fulla.Storage.Redis
import Fulla.Storage.Repository
import Fulla.Protocol.TokenCrypto
import Fulla.Protocol.TokenService
import Fulla.Web.Session
import Fulla.Web.Site
import Fulla.Identity.FailedLogins
import Fulla.Account.UserViews
import Fulla.Account.VerifiedAddress
import Fulla.Authz.AuthorizationFilter
import Fulla.Authz.RolePermissions
import Fulla.Authz.RoleFailures
import Fulla.Authz.RoleCoherence
import Fulla.Authz.ScopeRegistry
import Fulla.Cache.Server
import Fulla.Cache.TokenEntries
import Fulla.Cache.CachedTokens
import Fulla.Cache.AccessOnly
import Fulla.Cache.CachedClients
import Fulla.Cache.ClientTransparency
import Fulla.Model.QueryStrings
import Fulla.Model.ConstantTime
import Fulla.Cache.CachedSecrets
import Fulla.Cache.ClientKeys
import Fulla.Cache.Revoked
import Fulla.Cache.SuspendedClients
import Fulla.Cache.UserReads
import Fulla.Cache.UserCoherence
import Fulla.Conc.Cascades
import Fulla.Conc.Coupling
import Fulla.Conc.FailClosed
import Fulla.Conc.History
import Fulla.Conc.Offices
import Fulla.Conc.OneShot
import Fulla.Conc.Stateful
import Fulla.Device.DeviceCodes
import Fulla.Storage.Effects
import Fulla.Protocol.Calls
import Fulla.Web.Rules
import Fulla.Web.TokenEndpoint
import Fulla.Device.DeviceFlow
import Fulla.Device.DeviceSafety
import Fulla.Device.DeviceRuns
import Fulla.Identity.BackupCodes
import Fulla.Identity.LockoutCount
import Fulla.Identity.RandomSource
import Fulla.Webauthn.Cbor
import Fulla.Webauthn.CborReader
import Fulla.Webauthn.ClientBytes
import Fulla.Webauthn.WebAuthnService
import Fulla.Identity.Minting
import Fulla.Identity.PasswordHashes
import Fulla.Identity.PendingMfa
import Fulla.Identity.PendingBook
import Fulla.Web.Controllers
import Fulla.Web.Effects
import Fulla.Web.Runs
import Fulla.Identity.PendingOnce
import Fulla.Model.BitGroups
import Fulla.Identity.TotpUtils
import Fulla.Jwk.Verification
import Fulla.Jwk.Exceptions
import Fulla.Jwk.Keystore
import Fulla.Jwk.OpenSslBase64Url
import Fulla.Model.EmailAddresses
import Fulla.Model.HostLiterals
import Fulla.Model.LikePatterns
import Fulla.Org.Services
import Fulla.Org.Runs
import Fulla.Org.Constraints
import Fulla.Org.ConsentRequests
import Fulla.Org.DeletionCascade
import Fulla.Org.DeletionLocks
import Fulla.Org.DeletionRuns
import Fulla.Org.Programs
import Fulla.Org.DeletedOrgs
import Fulla.Org.Invitations
import Fulla.Org.Ownership
import Fulla.Org.Owners
import Fulla.Org.OwnedOrgs
import Fulla.Org.Quotas
import Fulla.Org.Slugs
import Fulla.Protocol.ClaimMappings
import Fulla.Protocol.CustomAttributes
import Fulla.Protocol.ClaimSources
import Fulla.Protocol.RefreshFailure
import Fulla.Protocol.CodeRoundTrip
import Fulla.Storage.TokenFamilies
import Fulla.Protocol.Reuse
import Fulla.Protocol.GrantEnd
import Fulla.Storage.RedisTokens
import Fulla.Protocol.Introspection
import Fulla.Protocol.Provenance
import Fulla.Protocol.Purging
import Fulla.Protocol.Rotation
import Fulla.Storage.GrantCalls
import Fulla.Protocol.SingleUse
import Fulla.Social.SocialLinkService
import Fulla.Social.LinkState
import Fulla.Social.OneLink
import Fulla.Social.Lockout
import Fulla.Storage.ConsentKeys
import Fulla.Storage.GrantBook
import Fulla.Storage.Transactions
import Fulla.Web.AppRevocation
import Fulla.Web.ClientAuth
import Fulla.Web.IntrospectionAnswers
import Fulla.Web.LogoutTargets
import Fulla.Web.MintedTokens
import Fulla.Webauthn.Challenges
import Fulla.Webauthn.LoginChallenges
import Fulla.Webauthn.SignCounts
import Fulla.Web.PasswordChange
import Fulla.Web.PasswordReset
import Fulla.Web.PkceIssuance
import Fulla.Web.PromptNone
import Fulla.Web.RateLimiter
import Fulla.Web.RateDecisions
import Fulla.Web.Registration
import Fulla.Web.RedirectLocations
import Fulla.Web.RefreshStages
import Fulla.Web.RefreshFamilies
import Fulla.Web.RefusedLogin
import Fulla.Web.ScopeRedLine
import Fulla.Web.ScopeTokens
import Fulla.Web.SecondFactor
import Fulla.Web.Slots
import Fulla.Web.TokenManagement
import Fulla.Webauthn.CborTags
import Fulla.Webauthn.AuthData
