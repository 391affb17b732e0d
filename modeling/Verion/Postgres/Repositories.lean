import Verion.Postgres.Session

/-!
# Repositories (internal/identity/postgres/*_repo.go)

Each method is a script over one connection: the route it takes to the
database, the statement it sends, and how it turns the answer into a value or a
domain error. `now` is `time.Now()` of the calling process.
-/

namespace Verion.Postgres

open Calls

variable {Attrs : Type}

/-! ### Scanning -/

def scanTenant (r : TenantRow) : Tenant :=
  { id := r.id.toText, name := r.name, slug := r.slug, tier := r.tier, status := r.status,
    settings := some r.settings, dataRegion := r.dataRegion, createdAt := r.createdAt,
    updatedAt := r.updatedAt }

/-- `row.Scan` stores the columns one after another into the destinations it is
given; `attributes` and `attributes_iv` both go to `&ident.Attributes`
(`identity_repo.go:227-231`). -/
def scanIdentity (r : IdentityRow) : Identity Attrs :=
  let ident : Identity Attrs := {}
  let ident := { ident with id := r.id.toText }
  let ident := { ident with tenantID := r.tenantID.toText }
  let ident := { ident with displayName := r.displayName }
  let ident := { ident with handle := r.handle }
  let ident := { ident with primaryKeyID := r.primaryKeyID.map UUID.toText }
  let ident := { ident with attributes := some r.attributes }
  let ident := { ident with attributes := some r.attributesIV }
  let ident := { ident with createdBy := r.createdBy.map UUID.toText }
  let ident := { ident with version := r.version }
  let ident := { ident with deactivatedAt := r.deactivatedAt }
  { ident with type := r.type, status := r.status, createdAt := r.createdAt,
               updatedAt := r.updatedAt }

def scanKey (r : KeyRow) : IdentityKey :=
  { id := r.id.toText, identityID := r.identityID.toText, tenantID := r.tenantID.toText,
    keyType := r.keyType, purpose := r.purpose, algorithm := r.algorithm,
    publicKey := some r.publicKey, publicKeyJWK := some r.publicKeyJWK, keyRef := r.keyRef,
    fingerprint := r.fingerprint, status := r.status, validFrom := r.validFrom,
    validUntil := r.validUntil, rotatedAt := r.rotatedAt,
    rotatedTo := r.rotatedTo.map UUID.toText, createdAt := r.createdAt }

def scanAuditEvent (r : AuditRow) : AuditEvent :=
  { id := r.id.toText, tenantID := r.tenantID.toText, eventType := r.eventType,
    entityType := r.entityType, entityID := r.entityID.toText,
    actorID := r.actorID.map UUID.toText, afterState := r.afterState, success := r.success,
    occurredAt := some r.occurredAt.toTime }

def scanCredential (r : CredentialRow) : Credential :=
  { id := r.id.toText, identityID := r.identityID.toText, tenantID := r.tenantID.toText,
    keyID := r.keyID.map UUID.toText, type := r.type, status := r.status, data := some r.data,
    dataIV := some r.dataIV, aaguid := r.aaguid.map UUID.toText, credentialID := r.credentialID,
    signCount := r.signCount, name := r.name, deviceInfo := r.deviceInfo,
    lastUsedAt := r.lastUsedAt, createdAt := r.createdAt, expiresAt := r.expiresAt }

/-- `QueryRow(...).Scan(...)`: the first row, or `ErrNoRows`. -/
def single {ρ α : Type} (scan : ρ → α) (fail : Error → Error) :
    Except PgError (List ρ) → Except Error α
  | .ok (r :: _) => .ok (scan r)
  | .ok [] => .error (fail (.pg .noRows))
  | .error e => .error (fail (.pg e))

/-- `Query(...)` with a loop over `rows.Next()`. -/
def many {ρ α : Type} (scan : ρ → α) (fail : Error → Error) :
    Except PgError (List ρ) → Except Error (List α)
  | .ok rows => .ok (rows.map scan)
  | .error e => .error (fail (.pg e))

/-- `Exec(...)`. -/
def done {ρ : Type} (fail : Error → Error) : Except PgError (List ρ) → Except Error Unit
  | .ok _ => .ok ()
  | .error e => .error (fail (.pg e))

def ifUnique (domain : Sentinel) (context : String) (e : Error) : Error :=
  if e.isUniqueViolation then .sentinel domain else .wrap context e

def ifNotFound (domain : Error) (context : String) (e : Error) : Error :=
  if e.isNotFound then domain else .wrap context e

/-! ### TenantRepo: tenants are not tenant-scoped, the pool is used directly -/

namespace TenantRepo

def create (t : Tenant) : Script Tenant :=
  viaPool (.tenantInsert t.name t.slug t.tier t.status (t.settings.getD [0x7b, 0x7d]) t.dataRegion)
    (single scanTenant (ifUnique .alreadyExists "postgres: create tenant"))

def getByID (id : String) : Script Tenant :=
  viaPool (.tenantGetByID id)
    (single scanTenant (ifNotFound (.notFound "tenant" id) "postgres: get tenant"))

def getBySlug (slug : String) : Script Tenant :=
  viaPool (.tenantGetBySlug slug)
    (single scanTenant (ifNotFound (.notFound "tenant" slug) "postgres: get tenant by slug"))

def update (t : Tenant) : Script Tenant :=
  viaPool (.tenantUpdate t.id t.name t.tier t.settings t.dataRegion)
    (single scanTenant (ifNotFound (.notFound "tenant" t.id) "postgres: update tenant"))

def updateStatus (id : String) (status : TenantStatus) : Script Unit :=
  viaPool (.tenantUpdateStatus id status) (done (.wrap "postgres: update tenant status"))

def list (filter : TenantFilter) : Script (List Tenant) :=
  viaPool (.tenantList filter) (many scanTenant (.wrap "postgres: list tenants"))

end TenantRepo

/-! ### AuditRepo -/

namespace AuditRepo

/-- `insertConn` and `insertTx`: a zero `OccurredAt` becomes now. -/
def insertTx (now : Time) (e : AuditEvent) : Script Unit :=
  ask (.auditInsert e.tenantID e.eventType e.entityType e.entityID e.actorID e.afterState e.success
    (e.occurredAt.getD now)) (single (fun _ => ()) fun e => e)

def insert (now : Time) (e : AuditEvent) : Script Unit :=
  withTenantConn e.tenantID (insertTx now e)

def getByID (tenantID id : String) : Script AuditEvent :=
  withTenantConn tenantID (ask (.auditGetByID tenantID id) (single scanAuditEvent fun e => e))

def listByEntity (tenantID entityType entityID : String) (limit offset : Int) :
    Script (List AuditEvent) :=
  withTenantConn tenantID
    (ask (.auditListByEntity tenantID entityType entityID limit offset)
      (many scanAuditEvent fun e => e))

def listByActor (tenantID actorID : String) (limit offset : Int) : Script (List AuditEvent) :=
  withTenantConn tenantID
    (ask (.auditListByActor tenantID actorID limit offset) (many scanAuditEvent fun e => e))

def listByTenant (tenantID : String) (filter : AuditFilter) : Script (List AuditEvent) :=
  withTenantConn tenantID (ask (.auditListByTenant tenantID filter)
    (many scanAuditEvent fun e => e))

end AuditRepo

/-! ### IdentityRepo -/

namespace IdentityRepo

/-- What `Create` does inside its transaction. -/
def createTx (now : Time) (ident : Identity Attrs) : Script (Identity Attrs) := do
  let result ← ask (.identityInsert ident.tenantID ident.type ident.displayName ident.handle
      ident.status (some (ident.attributes.getD [])) (some []) ident.createdBy)
    (single scanIdentity (ifUnique .handleTaken "postgres: insert identity"))
  AuditRepo.insertTx now
    { tenantID := ident.tenantID, eventType := "identity.created", entityType := "identity",
      entityID := result.id, actorID := ident.createdBy,
      afterState := some ⟨result.id, result.type, result.displayName, result.handle,
        result.status⟩,
      success := true, occurredAt := some now }
  .ret result

def create (now : Time) (ident : Identity Attrs) : Script (Identity Attrs) :=
  withTenantTx ident.tenantID (createTx now ident)

theorem createTx_only_query (now : Time) (ident : Identity Attrs) :
    (createTx now ident).Only Statement.isQuery :=
  (only_query_ask _ _).bind fun _ => (only_query_ask _ _).bind fun _ => trivial

def getByID (tenantID id : String) : Script (Identity Attrs) :=
  withTenantConn tenantID (ask (.identityGetByID tenantID id)
    (single scanIdentity (ifNotFound (.notFound "identity" id) "postgres: get identity")))

def getByHandle (tenantID handle : String) : Script (Identity Attrs) :=
  withTenantConn tenantID (ask (.identityGetByHandle tenantID handle)
    (single scanIdentity
      (ifNotFound (.notFound "identity" handle) "postgres: get identity by handle")))

def update (ident : Identity Attrs) : Script (Identity Attrs) :=
  withTenantConn ident.tenantID
    (ask (.identityUpdate ident.tenantID ident.id ident.displayName ident.attributes (some [])
        ident.version)
      (single scanIdentity (ifNotFound (.versionConflict "identity" ident.id ident.version 0)
        "postgres: update identity")))

def updateStatus (tenantID id : String) (status : IdentityStatus) : Script Unit :=
  withTenantConn tenantID (ask (.identityUpdateStatus tenantID id status) (done fun e => e))

def setPrimaryKey (tenantID identityID keyID : String) : Script Unit :=
  withTenantConn tenantID
    (ask (.identitySetPrimaryKey tenantID identityID keyID) (done fun e => e))

def list (tenantID : String) (filter : IdentityFilter) : Script (List (Identity Attrs)) :=
  withTenantConn tenantID
    (ask (.identityList tenantID filter) (many scanIdentity (.wrap "postgres: list identities")))

/-- `Count` ignores its filter (`identity_repo.go:215-221`). -/
def count (tenantID : String) (_filter : IdentityFilter) : Script Nat :=
  withTenantConn tenantID
    (ask (.identityCount tenantID) (single (fun n : Nat => n) fun e => e))

end IdentityRepo

/-! ### KeyRepo -/

namespace KeyRepo

def create (key : IdentityKey) : Script IdentityKey :=
  withTenantConn key.tenantID
    (ask (.keyInsert key) (single scanKey (.wrap "postgres: insert key")))

/-- What `getKey` makes of the answer to each of the three selects. -/
def found : Except PgError (List KeyRow) → Except Error IdentityKey :=
  single scanKey fun e => if e.isNotFound then .sentinel .keyNotFound else e

def getByID (tenantID id : String) : Script IdentityKey :=
  withTenantConn tenantID (ask (.keyGetByID tenantID id) found)

def getByFingerprint (tenantID fingerprint : String) : Script IdentityKey :=
  withTenantConn tenantID (ask (.keyGetByFingerprint tenantID fingerprint) found)

def getActiveByPurpose (tenantID identityID : String) (purpose : KeyPurpose) :
    Script IdentityKey :=
  withTenantConn tenantID (ask (.keyGetActiveByPurpose tenantID identityID purpose) found)

def listByIdentity (tenantID identityID : String) (status : Option KeyStatus) :
    Script (List IdentityKey) :=
  withTenantConn tenantID
    (ask (.keyListByIdentity tenantID identityID status) (many scanKey fun e => e))

def rotate (tenantID oldKeyID newKeyID : String) : Script Unit :=
  withTenantConn tenantID (ask (.keyRotate tenantID oldKeyID newKeyID) (done fun e => e))

def revoke (tenantID keyID : String) : Script Unit :=
  withTenantConn tenantID (ask (.keyRevoke tenantID keyID) (done fun e => e))

def markCompromised (tenantID keyID : String) : Script Unit :=
  withTenantConn tenantID (ask (.keyMarkCompromised tenantID keyID) (done fun e => e))

end KeyRepo

/-! ### CredentialRepo -/

namespace CredentialRepo

/-- The methods on a tenant connection translate the error outside `withTenantConn`. -/
def mapError {α : Type} (f : Error → Error) (s : Script α) : Script α := do
  match ← s.attempt with
  | .ok a => .ret a
  | .error e => .fail (f e)

def create (cred : Credential) : Script Credential :=
  mapError (ifUnique .alreadyExists "credential repo: create")
    (withTenantConn cred.tenantID
      (ask (.credentialInsert cred)
        (single (fun r : UUID × Time => { cred with id := r.1.toText, createdAt := r.2 })
          fun e => e)))

def getByID (tenantID id : String) : Script Credential :=
  mapError (ifNotFound (.sentinel .credentialNotFound) "credential repo: get by id")
    (withTenantConn tenantID
      (ask (.credentialGetByID tenantID id) (single scanCredential fun e => e)))

def getWebAuthnByCredentialID (tenantID : String) (credentialID : Option Bytes) :
    Script Credential :=
  mapError (ifNotFound (.sentinel .credentialNotFound)
      "credential repo: get webauthn by credential id")
    (withTenantConn tenantID
      (ask (.credentialGetByCredentialID tenantID credentialID) (single scanCredential fun e => e)))

def listByIdentity (tenantID identityID : String) (status : Option CredentialStatus) :
    Script (List Credential) :=
  viaPool (.credentialListByIdentity tenantID identityID status)
    (many scanCredential (.wrap "credential repo: list by identity"))

def updateSignCount (tenantID credentialID : String) (newCount : Int) : Script Unit :=
  viaPool (.credentialUpdateSignCount tenantID credentialID newCount)
    (done (.wrap "credential repo: update sign count"))

def updateLastUsed (tenantID credentialID : String) (at_ : Time) : Script Unit :=
  viaPool (.credentialUpdateLastUsed tenantID credentialID at_)
    (done (.wrap "credential repo: update last used"))

def revoke (tenantID credentialID : String) : Script Unit :=
  viaPool (.credentialRevoke tenantID credentialID) (done (.wrap "credential repo: revoke"))

end CredentialRepo

end Verion.Postgres
