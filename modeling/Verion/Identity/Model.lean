import Verion.Identity.Uuid

/-!
# Domain model (internal/identity/enums.go, model.go)

The Go enumerations are string types with named constants. Where a value can
come from outside as any text, `other` holds the texts that are no constant;
PostgreSQL's enum columns refuse them. Status types are only ever written from
constants and read from enum columns, so they are closed; a filter may name any
text.

A nil-able Go slice or pointer is an `Option`; `Time` counts nanoseconds.
-/

namespace Verion

abbrev Bytes := List UInt8

abbrev Time := Int

/-! ### Enumerations -/

inductive TenantTier where
  | standard | professional | enterprise
  | other (text : String)
deriving DecidableEq, Repr

inductive TenantStatus where
  | active | suspended | deactivated
deriving DecidableEq, Repr

inductive IdentityType where
  | human | org | device | service | machine | aiAgent
  | other (text : String)
deriving DecidableEq, Repr

inductive IdentityStatus where
  | pending | active | suspended | deactivated | archived
deriving DecidableEq, Repr

/-- "The identity can never return to active state" (`enums.go:82-85`). -/
def IdentityStatus.isTerminal (s : IdentityStatus) : Bool :=
  s == .deactivated || s == .archived

inductive KeyType where
  | ed25519 | ecdsaP256 | ecdsaP384 | rsa4096
  | other (text : String)
deriving DecidableEq, Repr

inductive KeyPurpose where
  | signing | encryption | authentication | recovery
  | other (text : String)
deriving DecidableEq, Repr

inductive KeyStatus where
  | active | rotated | revoked | compromised
deriving DecidableEq, Repr

/-- Signatures of this key should be accepted (`enums.go:142-145`). -/
def KeyStatus.isTrusted (s : KeyStatus) : Bool :=
  s == .active || s == .rotated

inductive CredentialType where
  | passkey | totp | hardwareToken | recoveryCode | apiKey | mtlsCert | biometric
  | other (text : String)
deriving DecidableEq, Repr

inductive CredentialStatus where
  | active | revoked | expired
deriving DecidableEq, Repr

def TenantTier.text : TenantTier → String
  | .standard => "standard"
  | .professional => "professional"
  | .enterprise => "enterprise"
  | .other t => t

def TenantTier.ofText : String → TenantTier
  | "standard" => .standard
  | "professional" => .professional
  | "enterprise" => .enterprise
  | t => .other t

def IdentityType.text : IdentityType → String
  | .human => "human"
  | .org => "org"
  | .device => "device"
  | .service => "service"
  | .machine => "machine"
  | .aiAgent => "ai_agent"
  | .other t => t

def IdentityType.ofText : String → IdentityType
  | "human" => .human
  | "org" => .org
  | "device" => .device
  | "service" => .service
  | "machine" => .machine
  | "ai_agent" => .aiAgent
  | t => .other t

def TenantStatus.text : TenantStatus → String
  | .active => "active"
  | .suspended => "suspended"
  | .deactivated => "deactivated"

def TenantStatus.ofText? : String → Option TenantStatus
  | "active" => some .active
  | "suspended" => some .suspended
  | "deactivated" => some .deactivated
  | _ => none

def IdentityStatus.text : IdentityStatus → String
  | .pending => "pending"
  | .active => "active"
  | .suspended => "suspended"
  | .deactivated => "deactivated"
  | .archived => "archived"

def IdentityStatus.ofText? : String → Option IdentityStatus
  | "pending" => some .pending
  | "active" => some .active
  | "suspended" => some .suspended
  | "deactivated" => some .deactivated
  | "archived" => some .archived
  | _ => none

def KeyType.text : KeyType → String
  | .ed25519 => "ed25519"
  | .ecdsaP256 => "ecdsa_p256"
  | .ecdsaP384 => "ecdsa_p384"
  | .rsa4096 => "rsa_4096"
  | .other t => t

def KeyType.ofText : String → KeyType
  | "ed25519" => .ed25519
  | "ecdsa_p256" => .ecdsaP256
  | "ecdsa_p384" => .ecdsaP384
  | "rsa_4096" => .rsa4096
  | t => .other t

def KeyPurpose.ofText : String → KeyPurpose
  | "signing" => .signing
  | "encryption" => .encryption
  | "authentication" => .authentication
  | "recovery" => .recovery
  | t => .other t

/-! ### Entities -/

structure Tenant where
  id : String := ""
  name : String := ""
  slug : String := ""
  tier : TenantTier := .other ""
  status : TenantStatus := .active
  settings : Option Bytes := none
  dataRegion : String := ""
  createdAt : Time := 0
  updatedAt : Time := 0
deriving DecidableEq

/-- An identity as the Go code carries it; `Attrs` is the decoded attribute map. -/
structure Identity (Attrs : Type) where
  id : String := ""
  tenantID : String := ""
  type : IdentityType := .other ""
  displayName : String := ""
  handle : String := ""
  status : IdentityStatus := .pending
  primaryKeyID : Option String := none
  attributes : Option Bytes := none
  decryptedAttributes : Option Attrs := none
  createdBy : Option String := none
  version : Int := 0
  createdAt : Time := 0
  updatedAt : Time := 0
  deactivatedAt : Option Time := none
deriving DecidableEq

/-- The zero `time.Time`, 1 January of year 1 (`validFrom` of a key the services build). -/
def zeroTime : Time := -62135596800000000000

structure IdentityKey where
  id : String := ""
  identityID : String := ""
  tenantID : String := ""
  keyType : KeyType := .other ""
  purpose : KeyPurpose := .other ""
  algorithm : String := ""
  publicKey : Option Bytes := none
  publicKeyJWK : Option Bytes := none
  keyRef : String := ""
  fingerprint : String := ""
  status : KeyStatus := .active
  validFrom : Time := zeroTime
  validUntil : Option Time := none
  rotatedAt : Option Time := none
  rotatedTo : Option String := none
  createdAt : Time := zeroTime
deriving DecidableEq

/-- `IsUsable` at the time `now` (`model.go:161-174`). -/
def IdentityKey.isUsable (k : IdentityKey) (now : Time) : Bool :=
  if !k.status.isTrusted then false
  else if now < k.validFrom then false
  else match k.validUntil with
    | some u => !(u < now)
    | none => true

theorem IdentityKey.isTrusted_of_isUsable {k : IdentityKey} {now : Time}
    (h : k.isUsable now = true) : k.status.isTrusted = true := by
  unfold isUsable at h
  split at h
  · cases h
  · rename_i ht
    simpa using ht

structure Credential where
  id : String := ""
  identityID : String := ""
  tenantID : String := ""
  keyID : Option String := none
  type : CredentialType := .other ""
  status : CredentialStatus := .active
  data : Option Bytes := none
  dataIV : Option Bytes := none
  aaguid : Option String := none
  credentialID : Option Bytes := none
  signCount : Int := 0
  name : Option String := none
  deviceInfo : Option Bytes := none
  lastUsedAt : Option Time := none
  createdAt : Time := zeroTime
  expiresAt : Option Time := none
deriving DecidableEq

/-- What `IdentityRepo.Create` records of the row it inserted (`identity_repo.go:86-90`). -/
structure AfterState where
  id : String
  type : IdentityType
  displayName : String
  handle : String
  status : IdentityStatus
deriving DecidableEq

structure AuditEvent where
  id : String := ""
  tenantID : String := ""
  eventType : String := ""
  entityType : String := ""
  entityID : String := ""
  actorID : Option String := none
  afterState : Option AfterState := none
  success : Bool := false
  occurredAt : Option Time := none
deriving DecidableEq

structure IdentityWithKeys (Attrs : Type) where
  identity : Identity Attrs
  keys : List IdentityKey
deriving DecidableEq

/-! ### Filters (repository.go) -/

/-- The texts that the comment on `OrderBy` lists (`repository.go:98`); the empty one means
`created_at`. `List` puts any other text into the query as well; those are left out. -/
inductive OrderBy where
  | unset | createdAt | updatedAt | displayName
deriving DecidableEq, Repr

structure IdentityFilter where
  type : Option IdentityType := none
  status : Option String := none
  limit : Int := 0
  offset : Int := 0
  orderBy : OrderBy := .unset
  desc : Bool := false
deriving DecidableEq

structure TenantFilter where
  status : Option String := none
  tier : Option TenantTier := none
  limit : Int := 0
  offset : Int := 0
deriving DecidableEq

structure AuditFilter where
  eventType : Option String := none
  entityType : Option String := none
  actorID : Option String := none
  success : Option Bool := none
  since : Option Time := none
  until_ : Option Time := none
  limit : Int := 0
  offset : Int := 0
deriving DecidableEq

end Verion
