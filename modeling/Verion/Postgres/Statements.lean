import Verion.Postgres.Schema
import Mathlib.Data.List.Sort

/-!
# SQL statements of the repositories (internal/identity/postgres)

Each statement is a function of its parameters, the server's clock and the
identifier it draws, to the rows it returns and the tables it leaves, or to the
error it ends with. A statement that ends with an error changes nothing.
Parameters are bound first, then `NOT NULL`, unique indexes and foreign keys
are checked in the order PostgreSQL checks them.

The statements run as the owner of the tables, for whom the row-security
policies of migration 007 are bypassed; which setting each statement would see
under those policies is kept by the session (`Session.lean`).
-/

namespace Verion.Postgres

/-- `now()` and `uuid_generate_v4()` of one statement. -/
structure Stamp where
  now : Time
  newID : UUID

/-- The rows a statement returns and the tables it leaves. -/
abbrev Rows (ρ : Type) := List ρ × DB

/-- `LIMIT n OFFSET m`, both checked by the server to be non-negative. -/
def window {ρ : Type} (limit offset : Int) (rows : List ρ) : Except SqlState (List ρ) := do
  ensure (0 ≤ limit) .invalidRowCount
  ensure (0 ≤ offset) .invalidRowCount
  pure ((rows.drop offset.toNat).take limit.toNat)

/-- The clauses a repository appends: `LIMIT` and `OFFSET` only when positive. -/
def page {ρ : Type} (limit offset : Int) (rows : List ρ) : List ρ :=
  let rest := if 0 < offset then rows.drop offset.toNat else rows
  if 0 < limit then rest.take limit.toNat else rest

def optEq {τ : Type} [DecidableEq τ] (f : Option τ) (v : τ) : Bool :=
  match f with
  | none => true
  | some w => v == w

/-! ### tenants -/

section Tenants

variable (st : Stamp) (db : DB)

def sqlTenantInsert (name slug : String) (tier : TenantTier) (status : TenantStatus)
    (settings : Bytes) (dataRegion : String) : Except SqlState (Rows TenantRow) := do
  let name ← textParam name
  let slug ← textParam slug
  let tier ← labelParam isTenantTier tier
  let dataRegion ← textParam dataRegion
  let row : TenantRow :=
    { id := st.newID, name, slug, tier, status, settings, dataRegion,
      createdAt := st.now, updatedAt := st.now }
  let tenants ← insertUnique db.tenants (fun r => citextEq r.slug slug) row
  pure ([row], { db with tenants })

def sqlTenantGetByID (id : String) : Except SqlState (Rows TenantRow) := do
  let id ← uuidParam id
  pure (db.tenants.rows.filter fun r => decide (r.id = id), db)

def sqlTenantGetBySlug (slug : String) : Except SqlState (Rows TenantRow) := do
  let slug ← textParam slug
  pure (db.tenants.rows.filter fun r => citextEq r.slug slug, db)

def sqlTenantUpdate (id name : String) (tier : TenantTier) (settings : Option Bytes)
    (dataRegion : String) : Except SqlState (Rows TenantRow) := do
  let id ← uuidParam id
  let name ← textParam name
  let tier ← labelParam isTenantTier tier
  let dataRegion ← textParam dataRegion
  match db.tenants.get? id with
  | none => pure ([], db)
  | some _ =>
    let settings ← notNull settings
    let tenants := db.tenants.update (fun r => decide (r.id = id))
      (fun r => { r with name, tier, settings, dataRegion, updatedAt := st.now }) fun _ => rfl
    pure (tenants.rows.filter fun r => decide (r.id = id), { db with tenants })

def sqlTenantUpdateStatus (id : String) (status : TenantStatus) : Except SqlState (Rows Unit) := do
  let id ← uuidParam id
  let tenants := db.tenants.update (fun r => decide (r.id = id))
    (fun r => { r with status, updatedAt := st.now }) fun _ => rfl
  pure ([], { db with tenants })

def sqlTenantList (filter : TenantFilter) : Except SqlState (Rows TenantRow) := do
  let status ← labelParam? TenantStatus.ofText? filter.status
  if let some t := filter.tier then
    let _ ← labelParam isTenantTier t
  let rows := db.tenants.rows.filter fun r => optEq status r.status && optEq filter.tier r.tier
  pure (page filter.limit filter.offset (rows.insertionSort fun a b => b.createdAt ≤ a.createdAt),
    db)

end Tenants

/-! ### identities (identity_repo.go:15-57) -/

section Identities

variable (st : Stamp) (db : DB)

def sqlIdentityInsert (tenantID : String) (type : IdentityType) (displayName handle : String)
    (status : IdentityStatus) (attributes attributesIV : Option Bytes)
    (createdBy : Option String) : Except SqlState (Rows IdentityRow) := do
  let tenantID ← uuidParam tenantID
  let type ← labelParam isIdentityType type
  let displayName ← textParam displayName
  let handle ← textParam handle
  let createdBy ← uuidParam? createdBy
  let attributes ← notNull attributes
  let attributesIV ← notNull attributesIV
  let row : IdentityRow :=
    { id := st.newID, tenantID, type, displayName, handle, status, primaryKeyID := none,
      attributes, attributesIV, createdBy, version := 1, createdAt := st.now,
      updatedAt := st.now, deactivatedAt := none }
  let identities ← insertUnique db.identities
    (fun r => decide (r.tenantID = tenantID) && citextEq r.handle handle) row
  references db.tenants tenantID
  references? identities createdBy
  pure ([row], { db with identities })

/-- `WHERE tenant_id=$1 AND id=$2`. -/
def identityAt (tenantID id : UUID) (r : IdentityRow) : Bool :=
  decide (r.tenantID = tenantID) && decide (r.id = id)

def sqlIdentityGetByID (tenantID id : String) : Except SqlState (Rows IdentityRow) := do
  let tenantID ← uuidParam tenantID
  let id ← uuidParam id
  pure (db.identities.rows.filter (identityAt tenantID id), db)

def sqlIdentityGetByHandle (tenantID handle : String) : Except SqlState (Rows IdentityRow) := do
  let tenantID ← uuidParam tenantID
  let handle ← textParam handle
  pure (db.identities.rows.filter fun r =>
      decide (r.tenantID = tenantID) && citextEq r.handle handle,
    db)

/-- The row `sqlIdentityUpdate` makes of a row it selects. -/
def IdentityRow.updated (displayName : String) (attributes attributesIV : Bytes) (now : Time)
    (r : IdentityRow) : IdentityRow :=
  { r with displayName, attributes, attributesIV, version := r.version + 1, updatedAt := now }

def sqlIdentityUpdate (tenantID id displayName : String) (attributes attributesIV : Option Bytes)
    (version : Int) : Except SqlState (Rows IdentityRow) := do
  let tenantID ← uuidParam tenantID
  let id ← uuidParam id
  let displayName ← textParam displayName
  let selected : IdentityRow → Bool := fun r =>
    identityAt tenantID id r && decide (r.version = version)
  if db.identities.rows.any selected then
    let attributes ← notNull attributes
    let attributesIV ← notNull attributesIV
    ensure (version < maxBigint) .numericValueOutOfRange
    let identities := db.identities.update selected
      (IdentityRow.updated displayName attributes attributesIV st.now) fun _ => rfl
    pure ((db.identities.rows.filter selected).map
      (IdentityRow.updated displayName attributes attributesIV st.now), { db with identities })
  else pure ([], db)

/-- The row `sqlIdentityUpdateStatus` makes of a row it selects. -/
def IdentityRow.withStatus (status : IdentityStatus) (now : Time) (r : IdentityRow) : IdentityRow :=
  { r with
    status
    deactivatedAt := if status.isTerminal then some now else r.deactivatedAt
    updatedAt := now }

def sqlIdentityUpdateStatus (tenantID id : String) (status : IdentityStatus) :
    Except SqlState (Rows Unit) := do
  let tenantID ← uuidParam tenantID
  let id ← uuidParam id
  let identities := db.identities.update (identityAt tenantID id)
    (IdentityRow.withStatus status st.now) fun _ => rfl
  pure ([], { db with identities })

/-- The row `sqlIdentitySetPrimaryKey` makes of a row it selects. -/
def IdentityRow.withPrimaryKey (keyID : UUID) (now : Time) (r : IdentityRow) : IdentityRow :=
  { r with primaryKeyID := some keyID, updatedAt := now }

def sqlIdentitySetPrimaryKey (tenantID id keyID : String) : Except SqlState (Rows Unit) := do
  let tenantID ← uuidParam tenantID
  let id ← uuidParam id
  let keyID ← uuidParam keyID
  if db.identities.rows.any (identityAt tenantID id) then
    references db.identityKeys keyID
    let identities := db.identities.update (identityAt tenantID id)
      (IdentityRow.withPrimaryKey keyID st.now) fun _ => rfl
    pure ([], { db with identities })
  else pure ([], db)

/-- `ORDER BY`, ascending unless `Desc` is set. -/
def identityOrder (filter : IdentityFilter) (a b : IdentityRow) : Bool :=
  let le : IdentityRow → IdentityRow → Bool := fun a b => match filter.orderBy with
    | .unset | .createdAt => decide (a.createdAt ≤ b.createdAt)
    | .updatedAt => decide (a.updatedAt ≤ b.updatedAt)
    | .displayName => decide (a.displayName ≤ b.displayName)
  if filter.desc then le b a else le a b

def sqlIdentityList (tenantID : String) (filter : IdentityFilter) :
    Except SqlState (Rows IdentityRow) := do
  let tenantID ← uuidParam tenantID
  if let some t := filter.type then
    let _ ← labelParam isIdentityType t
  let status ← labelParam? IdentityStatus.ofText? filter.status
  let rows := db.identities.rows.filter fun r =>
    decide (r.tenantID = tenantID) && optEq filter.type r.type && optEq status r.status
  pure (page filter.limit filter.offset
    (rows.insertionSort fun a b => identityOrder filter a b = true), db)

def sqlIdentityCount (tenantID : String) : Except SqlState (Rows Nat) := do
  let tenantID ← uuidParam tenantID
  pure ([(db.identities.rows.filter fun r => decide (r.tenantID = tenantID)).length], db)

end Identities

/-! ### audit_events (audit_key_repo.go:18-26) -/

section Audit

variable (st : Stamp) (db : DB)

def sqlAuditInsert (tenantID eventType entityType entityID : String) (actorID : Option String)
    (afterState : Option AfterState) (success : Bool) (occurredAt : Time) :
    Except SqlState (Rows UUID) := do
  let tenantID ← uuidParam tenantID
  let entityID ← uuidParam entityID
  let actorID ← uuidParam? actorID
  let row : AuditRow :=
    { id := st.newID, tenantID, eventType, entityType, entityID, actorID, afterState, success,
      occurredAt := .ofTime occurredAt }
  let auditEvents ← insertUnique db.auditEvents (fun _ => false) row
  references db.tenants tenantID
  pure ([row.id], { db with auditEvents })

/-- `ORDER BY occurred_at DESC`. -/
def newestFirst (rows : List AuditRow) : List AuditRow :=
  rows.insertionSort fun a b => b.occurredAt.micros ≤ a.occurredAt.micros

def sqlAuditGetByID (tenantID id : String) : Except SqlState (Rows AuditRow) := do
  let tenantID ← uuidParam tenantID
  let id ← uuidParam id
  pure (db.auditEvents.rows.filter fun r => decide (r.tenantID = tenantID) && decide (r.id = id),
    db)

def sqlAuditListByEntity (tenantID entityType entityID : String) (limit offset : Int) :
    Except SqlState (Rows AuditRow) := do
  let tenantID ← uuidParam tenantID
  let entityType ← textParam entityType
  let entityID ← uuidParam entityID
  let rows ← window limit offset <| newestFirst <| db.auditEvents.rows.filter fun r =>
    decide (r.tenantID = tenantID) && (r.entityType == entityType && decide (r.entityID = entityID))
  pure (rows, db)

def sqlAuditListByActor (tenantID actorID : String) (limit offset : Int) :
    Except SqlState (Rows AuditRow) := do
  let tenantID ← uuidParam tenantID
  let actorID ← uuidParam actorID
  let rows ← window limit offset <| newestFirst <| db.auditEvents.rows.filter fun r =>
    decide (r.tenantID = tenantID) && decide (r.actorID = some actorID)
  pure (rows, db)

/-- `ListByTenant` builds no clause for `ActorID` and `Success` (`audit_key_repo.go:107-134`). -/
def sqlAuditListByTenant (tenantID : String) (filter : AuditFilter) :
    Except SqlState (Rows AuditRow) := do
  let tenantID ← uuidParam tenantID
  let eventType ← textParam? filter.eventType
  let entityType ← textParam? filter.entityType
  let since ← timestampParam? filter.since
  let until_ ← timestampParam? filter.until_
  let rows := db.auditEvents.rows.filter fun r =>
    decide (r.tenantID = tenantID) &&
      (optEq eventType r.eventType && optEq entityType r.entityType &&
      since.all (fun t => decide (t.micros ≤ r.occurredAt.micros)) &&
      until_.all (fun t => decide (r.occurredAt.micros ≤ t.micros)))
  pure (page filter.limit filter.offset (newestFirst rows), db)

end Audit

/-! ### identity_keys (audit_key_repo.go:180-199) -/

section Keys

variable (st : Stamp) (db : DB)

def sqlKeyInsert (k : IdentityKey) : Except SqlState (Rows KeyRow) := do
  let identityID ← uuidParam k.identityID
  let tenantID ← uuidParam k.tenantID
  let keyType ← labelParam isKeyType k.keyType
  let purpose ← labelParam isKeyPurpose k.purpose
  let publicKey ← notNull k.publicKey
  let publicKeyJWK ← notNull k.publicKeyJWK
  let row : KeyRow :=
    { id := st.newID, identityID, tenantID, keyType, purpose, algorithm := k.algorithm,
      publicKey, publicKeyJWK, keyRef := k.keyRef,
      fingerprint := k.fingerprint, status := k.status, validFrom := k.validFrom,
      validUntil := k.validUntil, rotatedAt := none, rotatedTo := none, createdAt := st.now }
  -- the partial unique index covers active keys only
  let identityKeys ← insertUnique db.identityKeys (fun r => k.status == .active &&
    (r.status == .active && decide (r.identityID = identityID) && decide (r.purpose = purpose))) row
  references db.identities identityID
  references db.tenants tenantID
  pure ([row], { db with identityKeys })

/-- `WHERE tenant_id=$1 AND id=$2`. -/
def keyAt (tenantID id : UUID) (r : KeyRow) : Bool :=
  decide (r.tenantID = tenantID) && decide (r.id = id)

def sqlKeyGetByID (tenantID id : String) : Except SqlState (Rows KeyRow) := do
  let tenantID ← uuidParam tenantID
  let id ← uuidParam id
  pure (db.identityKeys.rows.filter (keyAt tenantID id), db)

def sqlKeyGetByFingerprint (tenantID fingerprint : String) : Except SqlState (Rows KeyRow) := do
  let tenantID ← uuidParam tenantID
  let fingerprint ← textParam fingerprint
  pure (db.identityKeys.rows.filter fun r =>
    decide (r.tenantID = tenantID) && r.fingerprint == fingerprint, db)

def sqlKeyGetActiveByPurpose (tenantID identityID : String) (purpose : KeyPurpose) :
    Except SqlState (Rows KeyRow) := do
  let tenantID ← uuidParam tenantID
  let identityID ← uuidParam identityID
  let purpose ← labelParam isKeyPurpose purpose
  let rows := db.identityKeys.rows.filter fun r => decide (r.tenantID = tenantID) &&
    (decide (r.identityID = identityID) && decide (r.purpose = purpose) && r.status == .active)
  pure (rows.take 1, db)

def sqlKeyListByIdentity (tenantID identityID : String) (status : Option KeyStatus) :
    Except SqlState (Rows KeyRow) := do
  let tenantID ← uuidParam tenantID
  let identityID ← uuidParam identityID
  let rows := db.identityKeys.rows.filter fun r => decide (r.tenantID = tenantID) &&
    (decide (r.identityID = identityID) && optEq status r.status)
  pure (rows.insertionSort fun a b => b.createdAt ≤ a.createdAt, db)

/-- The row `sqlKeyRotate` makes of a row it selects. -/
def KeyRow.rotated (newKeyID : UUID) (now : Time) (r : KeyRow) : KeyRow :=
  { r with status := .rotated, rotatedAt := some now, rotatedTo := some newKeyID }

def sqlKeyRotate (tenantID oldKeyID newKeyID : String) : Except SqlState (Rows Unit) := do
  let tenantID ← uuidParam tenantID
  let oldKeyID ← uuidParam oldKeyID
  let newKeyID ← uuidParam newKeyID
  if db.identityKeys.rows.any (keyAt tenantID oldKeyID) then
    references db.identityKeys newKeyID
    let identityKeys := db.identityKeys.update (keyAt tenantID oldKeyID)
      (KeyRow.rotated newKeyID st.now) fun _ => rfl
    pure ([], { db with identityKeys })
  else pure ([], db)

/-- `sqlKeyRevoke` and `sqlKeyMarkCompromised` differ in the status they write. -/
def sqlKeySetStatus (status : KeyStatus) (tenantID keyID : String) :
    Except SqlState (Rows Unit) := do
  let tenantID ← uuidParam tenantID
  let keyID ← uuidParam keyID
  let identityKeys := db.identityKeys.update (keyAt tenantID keyID)
    (fun r => { r with status }) fun _ => rfl
  pure ([], { db with identityKeys })

def sqlKeyRevoke (tenantID keyID : String) : Except SqlState (Rows Unit) :=
  sqlKeySetStatus db .revoked tenantID keyID

def sqlKeyMarkCompromised (tenantID keyID : String) : Except SqlState (Rows Unit) :=
  sqlKeySetStatus db .compromised tenantID keyID

end Keys

/-! ### credentials (credential_repo.go) -/

section Credentials

variable (st : Stamp) (db : DB)

def sqlCredentialInsert (c : Credential) : Except SqlState (Rows (UUID × Time)) := do
  let identityID ← uuidParam c.identityID
  let tenantID ← uuidParam c.tenantID
  let keyID ← uuidParam? c.keyID
  let type ← labelParam isCredentialType c.type
  let aaguid ← uuidParam? c.aaguid
  let data ← notNull c.data
  let dataIV ← notNull c.dataIV
  let row : CredentialRow :=
    { id := st.newID, identityID, tenantID, keyID, type, status := c.status, data, dataIV, aaguid,
      credentialID := c.credentialID, signCount := c.signCount, name := c.name,
      deviceInfo := c.deviceInfo, lastUsedAt := none, createdAt := st.now, expiresAt := none }
  let credentials ← insertUnique db.credentials (fun r => c.credentialID.isSome &&
    (decide (r.tenantID = tenantID) && decide (r.credentialID = c.credentialID))) row
  references db.identities identityID
  references db.tenants tenantID
  references? db.identityKeys keyID
  pure ([(row.id, row.createdAt)], { db with credentials })

/-- `WHERE id=$1 AND tenant_id=$2`. -/
def credentialAt (tenantID id : UUID) (r : CredentialRow) : Bool :=
  decide (r.tenantID = tenantID) && decide (r.id = id)

def sqlCredentialGetByID (tenantID id : String) : Except SqlState (Rows CredentialRow) := do
  let tenantID ← uuidParam tenantID
  let id ← uuidParam id
  pure (db.credentials.rows.filter (credentialAt tenantID id), db)

def sqlCredentialGetByCredentialID (tenantID : String) (credentialID : Option Bytes) :
    Except SqlState (Rows CredentialRow) := do
  let tenantID ← uuidParam tenantID
  -- a NULL parameter equals nothing
  pure (db.credentials.rows.filter fun r => decide (r.tenantID = tenantID) &&
    (credentialID.isSome && decide (r.credentialID = credentialID)), db)

def sqlCredentialListByIdentity (tenantID identityID : String)
    (status : Option CredentialStatus) : Except SqlState (Rows CredentialRow) := do
  let tenantID ← uuidParam tenantID
  let identityID ← uuidParam identityID
  pure (db.credentials.rows.filter fun r => decide (r.tenantID = tenantID) &&
    (decide (r.identityID = identityID) && optEq status r.status), db)

/-- The three `UPDATE` statements of the table differ in the column they set. -/
def sqlCredentialSet (f : CredentialRow → CredentialRow) (hf : ∀ r, (f r).id = r.id)
    (tenantID id : String) : Except SqlState (Rows Unit) := do
  let tenantID ← uuidParam tenantID
  let id ← uuidParam id
  pure ([], { db with credentials := db.credentials.update (credentialAt tenantID id) f hf })

def sqlCredentialUpdateSignCount (tenantID id : String) (count : Int) :
    Except SqlState (Rows Unit) :=
  sqlCredentialSet db (fun r => { r with signCount := count }) (fun _ => rfl) tenantID id

def sqlCredentialUpdateLastUsed (tenantID id : String) (at_ : Time) :
    Except SqlState (Rows Unit) :=
  sqlCredentialSet db (fun r => { r with lastUsedAt := some at_ }) (fun _ => rfl) tenantID id

def sqlCredentialRevoke (tenantID id : String) : Except SqlState (Rows Unit) :=
  sqlCredentialSet db (fun r => { r with status := .revoked }) (fun _ => rfl) tenantID id

end Credentials

end Verion.Postgres
