import Verion.Library.Base64
import Verion.Library.Lease
import Verion.Library.Paging
import Verion.Library.Program
import Verion.Library.Embedding
import Verion.Library.Fronts
import Verion.Library.Interleaving
import Verion.Library.CheckThenAct
import Verion.Library.Lockstep
import Verion.Library.Redis
import Verion.Library.RedisCoding
import Verion.Library.Table
import Verion.Library.Utf8
import Verion.Library.Scan
import Verion.Library.Json
import Verion.Library.Dynamic
import Verion.Library.Sql
import Verion.Identity.Uuid
import Verion.Identity.Model
import Verion.Identity.Errors
import Verion.Crypto.MasterKey
import Verion.Crypto.RecoveryCodes
import Verion.Crypto.Jwk
import Verion.Postgres.Schema
import Verion.Postgres.Statements
import Verion.Postgres.Queries
import Verion.Postgres.Lists
import Verion.Postgres.Session
import Verion.Postgres.Repositories
import Verion.Postgres.Calls
import Verion.Postgres.Effects
import Verion.Postgres.AuditLists
import Verion.Postgres.Frame
import Verion.Postgres.Refusals
import Verion.Postgres.History
import Verion.Postgres.Constraints
import Verion.Postgres.RowSecurity
import Verion.Postgres.Pool
import Verion.Postgres.Tenancy
import Verion.Service.World
import Verion.Service.Identities
import Verion.Service.Keys
import Verion.Service.Requests
import Verion.Service.Effects
import Verion.Service.Attributes
import Verion.Service.Credentials
import Verion.Service.KeyStore
import Verion.Service.Lifecycle
import Verion.Service.KeyTrust
import Verion.Service.Rotation
import Verion.Service.Runs
import Verion.Service.Audit
import Verion.Service.Atomicity
import Verion.Service.Classification
import Verion.Service.KeyBinding
import Verion.Service.Generation
import Verion.Service.IdentityRows
import Verion.Service.Sealing
import Verion.Service.Sentinels
import Verion.Service.Signing
import Verion.Service.Signatures
import Verion.Service.Updates
import Verion.Service.Versions
import Verion.Sessions.Documents
import Verion.Sessions.Expiry
import Verion.Sessions.Store
import Verion.Sessions.Index
import Verion.Sessions.Logout
import Verion.Sessions.Ownership
import Verion.Sessions.Refinement
import Verion.Auth.World
import Verion.Auth.Ceremonies
import Verion.Auth.Runs
import Verion.Auth.Challenges
import Verion.Auth.Coherence
import Verion.Auth.Counters
import Verion.Auth.Assertions
import Verion.Auth.Gains
import Verion.Auth.Ownership
import Verion.Auth.Registration
import Verion.Auth.Passkeys
import Verion.Auth.TenantFrame
import Verion.Auth.Suspension
import Verion.Auth.Tokens
import Verion.Gateway.Routes
import Verion.Gateway.Records
import Verion.Gateway.Principals
import Verion.Gateway.Ownership
import Verion.Gateway.Tokens
import Verion.Http.Handlers
import Verion.Http.Public
import Verion.Http.Isolation
import Verion.Http.Breach
import Verion.Grpc.Server
import Verion.Grpc.Handlers
import Verion.Grpc.Counts
import Verion.Transport.Agreement
