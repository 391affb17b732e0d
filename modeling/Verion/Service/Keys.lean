import Verion.Service.Identities

/-!
# Key and tenant services (internal/identity/key_service.go, tenant_service.go)
-/

namespace Verion.Service

open Calls Postgres

variable {Attrs : Type}

structure GenerateKeyInput where
  tenantID : String
  identityID : String
  keyType : KeyType
  purpose : KeyPurpose
  actorID : Option String

/-! ### Keys -/

/-- The name a private key is stored under (`key_service.go:183-184`). -/
def cryptoKeyID (tenantID identityID : String) (keyType : KeyType) : String :=
  tenantID ++ "/" ++ identityID ++ "/" ++ keyType.text

theorem cryptoKeyID_ne (tenantID identityID : String) (keyType : KeyType) :
    cryptoKeyID tenantID identityID keyType ≠ "" := by
  intro h
  have hlen := congrArg (fun s => s.toList.length) h
  simp [cryptoKeyID] at hlen

/-- The generators behind the key types that have one, with the algorithm they name. -/
def generatorOf : KeyType → Option (KeyAlgorithm × String)
  | .ed25519 => some (.ed25519, "EdDSA")
  | .ecdsaP256 => some (.ecdsaP256, "ES256")
  | _ => none

/-- The active key the service builds from what the generator returned. -/
def keyOf (tenantID identityID : String) (keyType : KeyType) (purpose : KeyPurpose)
    (algorithm : String) (generated : GeneratedKey) : IdentityKey :=
  { tenantID, identityID, keyType, purpose, algorithm,
    publicKey := some generated.publicKeyDER, publicKeyJWK := some generated.jwk,
    keyRef := generated.keyRef, fingerprint := generated.fingerprint, status := .active }

def generateKeyPair (tenantID identityID : String) (keyType : KeyType) (purpose : KeyPurpose) :
    Svc Attrs IdentityKey :=
  match generatorOf keyType with
  | none => .fail (.validation "key_type" ("unsupported key type: " ++ keyType.text))
  | some (generator, algorithm) => do
    let generated ← .call (.generateKey generator (cryptoKeyID tenantID identityID keyType))
      (orFail (.wrap ("generate " ++ keyType.text ++ " key")))
    .ret (keyOf tenantID identityID keyType purpose algorithm generated)

def generateKey (input : GenerateKeyInput) : Svc Attrs IdentityKey := do
  let ident ← repo (.identities (.getByID input.tenantID input.identityID))
    (wrapRepoError · "get identity for key generation")
  refuseIf (ident.status ≠ .active) (.sentinel .identityInactive)
  let key ← generateKeyPair input.tenantID input.identityID input.keyType input.purpose
  let createdKey ← repo (.keys (.create key)) (wrapRepoError · "create key")
  writeAudit
    { tenantID := input.tenantID, eventType := "key.created", entityType := "key",
      entityID := createdKey.id, actorID := input.actorID, success := true }
  .ret createdKey

def getKey (tenantID keyID : String) : Svc Attrs IdentityKey :=
  repo (.keys (.getByID tenantID keyID)) (wrapRepoError · "get key")

def listKeys (tenantID identityID : String) : Svc Attrs (List IdentityKey) :=
  repo (.keys (.listByIdentity tenantID identityID none)) (wrapRepoError · "list keys")

def rotateKey (tenantID identityID oldKeyID actorID : String) : Svc Attrs IdentityKey := do
  let oldKey ← repo (.keys (.getByID tenantID oldKeyID))
      (wrapRepoError · "get old key for rotation")
  let now ← .call .now .ret
  refuseIf (!oldKey.isUsable now) (.sentinel .keyNotUsable)
  let newKey ← generateKeyPair tenantID identityID oldKey.keyType oldKey.purpose
  let createdKey ← repo (.keys (.create newKey)) (wrapRepoError · "create rotated key")
  repo (.keys (.rotate tenantID oldKeyID createdKey.id)) (wrapRepoError · "mark old key as rotated")
  let ident ← repo (.identities (.getByID tenantID identityID))
    (wrapRepoError · "get identity for primary key update")
  (if ident.primaryKeyID = some oldKeyID then
    repo (.identities (.setPrimaryKey tenantID identityID createdKey.id))
      (wrapRepoError · "update primary key after rotation")
  else .ret ())
  writeAudit
    { tenantID, eventType := "key.rotated", entityType := "key", entityID := createdKey.id,
      actorID := some actorID, success := true }
  .ret createdKey

def revokeKey (tenantID keyID actorID : String) : Svc Attrs Unit := do
  let _ ← repo (.keys (.getByID tenantID keyID)) (wrapRepoError · "get key for revocation")
  repo (.keys (.revoke tenantID keyID)) (wrapRepoError · "revoke key")
  writeAudit
    { tenantID, eventType := "key.revoked", entityType := "key", entityID := keyID,
      actorID := some actorID, success := true }

/-! ### Tenants -/

structure CreateTenantInput where
  name : String
  slug : String
  tier : TenantTier
  dataRegion : String

/-- `^[a-z0-9-]+$`, on a text known not to be empty. -/
def slugChar (c : Char) : Bool :=
  ('a' ≤ c && c ≤ 'z') || ('0' ≤ c && c ≤ '9') || c == '-'

def validateCreateTenantInput (input : CreateTenantInput) : Except Error Unit :=
  if input.name = "" then .error (.validation "name" "must not be empty")
  else if input.slug = "" then .error (.validation "slug" "must not be empty")
  else if !input.slug.toList.all slugChar then
    .error (.validation "slug" "must match ^[a-z0-9-]+$")
  else .ok ()

def createTenant (input : CreateTenantInput) : Svc Attrs Tenant := do
  orFail (fun e => e) (validateCreateTenantInput input)
  let dataRegion := if input.dataRegion = "" then "global" else input.dataRegion
  let created ← repo (.tenants (.create
      { name := input.name, slug := input.slug, tier := input.tier, dataRegion,
        status := .active }))
    (wrapRepoError · "create tenant")
  writeAudit
    { tenantID := created.id, eventType := "tenant.created", entityType := "tenant",
      entityID := created.id, success := true }
  .ret created

def getTenant (id : String) : Svc Attrs Tenant :=
  repo (.tenants (.getByID id)) (wrapRepoError · "get tenant")

def getTenantBySlug (slug : String) : Svc Attrs Tenant :=
  repo (.tenants (.getBySlug slug)) (wrapRepoError · "get tenant by slug")

def suspendTenant (id : String) : Svc Attrs Unit := do
  let tenant ← repo (.tenants (.getByID id)) (wrapRepoError · "get tenant for suspend")
  refuseIf (tenant.status ≠ .active) (.sentinel .tenantInactive)
  repo (.tenants (.updateStatus id .suspended)) (wrapRepoError · "suspend tenant")
  writeAudit
    { tenantID := id, eventType := "tenant.suspended", entityType := "tenant", entityID := id,
      success := true }

/-- `ActivateTenant` writes no audit event (`tenant_service.go:131-144`). -/
def activateTenant (id : String) : Svc Attrs Unit := do
  let tenant ← repo (.tenants (.getByID id)) (wrapRepoError · "get tenant for activate")
  refuseIf (tenant.status = .deactivated) (.sentinel .tenantInactive)
  repo (.tenants (.updateStatus id .active)) (wrapRepoError · "activate tenant")

end Verion.Service
