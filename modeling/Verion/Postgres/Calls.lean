import Verion.Postgres.Repositories

/-!
# Repository calls

The methods of the repository interfaces (internal/identity/repository.go) as
data, one type per repository, with the type of value each returns and the
script that carries it out. A call takes effect at once: the services and the
interleavings of their requests are built over these calls.
-/

namespace Verion.Postgres

open Calls

inductive TenantCall where
  | create (tenant : Tenant)
  | getByID (id : String)
  | getBySlug (slug : String)
  | update (tenant : Tenant)
  | updateStatus (id : String) (status : TenantStatus)
  | list (filter : TenantFilter)

inductive IdentityCall (Attrs : Type) where
  | create (ident : Identity Attrs)
  | getByID (tenantID id : String)
  | getByHandle (tenantID handle : String)
  | update (ident : Identity Attrs)
  | updateStatus (tenantID id : String) (status : IdentityStatus)
  | setPrimaryKey (tenantID identityID keyID : String)
  | list (tenantID : String) (filter : IdentityFilter)
  | count (tenantID : String) (filter : IdentityFilter)

inductive KeyCall where
  | create (key : IdentityKey)
  | getByID (tenantID id : String)
  | getByFingerprint (tenantID fingerprint : String)
  | getActiveByPurpose (tenantID identityID : String) (purpose : KeyPurpose)
  | listByIdentity (tenantID identityID : String) (status : Option KeyStatus)
  | rotate (tenantID oldKeyID newKeyID : String)
  | revoke (tenantID keyID : String)
  | markCompromised (tenantID keyID : String)

inductive CredentialCall where
  | create (cred : Credential)
  | getByID (tenantID id : String)
  | getWebAuthnByCredentialID (tenantID : String) (credentialID : Option Bytes)
  | listByIdentity (tenantID identityID : String) (status : Option CredentialStatus)
  | updateSignCount (tenantID credentialID : String) (newCount : Int)
  | updateLastUsed (tenantID credentialID : String) (at_ : Time)
  | revoke (tenantID credentialID : String)

inductive AuditCall where
  | insert (event : AuditEvent)
  | getByID (tenantID id : String)
  | listByEntity (tenantID entityType entityID : String) (limit offset : Int)
  | listByActor (tenantID actorID : String) (limit offset : Int)
  | listByTenant (tenantID : String) (filter : AuditFilter)

inductive RepoCall (Attrs : Type) where
  | tenants (c : TenantCall)
  | identities (c : IdentityCall Attrs)
  | keys (c : KeyCall)
  | credentials (c : CredentialCall)
  | audit (c : AuditCall)

variable {Attrs : Type}

/-! ### Results and scripts -/

@[reducible] def TenantCall.Result : TenantCall → Type
  | .updateStatus .. => Unit
  | .list .. => List Tenant
  | .create .. | .getByID .. | .getBySlug .. | .update .. => Tenant

@[reducible] def IdentityCall.Result : IdentityCall Attrs → Type
  | .create .. | .getByID .. | .getByHandle .. | .update .. => Identity Attrs
  | .updateStatus .. | .setPrimaryKey .. => Unit
  | .list .. => List (Identity Attrs)
  | .count .. => Nat

@[reducible] def KeyCall.Result : KeyCall → Type
  | .create .. | .getByID .. | .getByFingerprint .. | .getActiveByPurpose .. => IdentityKey
  | .listByIdentity .. => List IdentityKey
  | .rotate .. | .revoke .. | .markCompromised .. => Unit

@[reducible] def CredentialCall.Result : CredentialCall → Type
  | .create .. | .getByID .. | .getWebAuthnByCredentialID .. => Credential
  | .listByIdentity .. => List Credential
  | .updateSignCount .. | .updateLastUsed .. | .revoke .. => Unit

@[reducible] def AuditCall.Result : AuditCall → Type
  | .insert .. => Unit
  | .getByID .. => AuditEvent
  | .listByEntity .. | .listByActor .. | .listByTenant .. => List AuditEvent

@[reducible] def RepoCall.Result : RepoCall Attrs → Type
  | .tenants c => c.Result
  | .identities c => c.Result
  | .keys c => c.Result
  | .credentials c => c.Result
  | .audit c => c.Result

def TenantCall.script : (c : TenantCall) → Script c.Result
  | .create t => TenantRepo.create t
  | .getByID id => TenantRepo.getByID id
  | .getBySlug slug => TenantRepo.getBySlug slug
  | .update t => TenantRepo.update t
  | .updateStatus id status => TenantRepo.updateStatus id status
  | .list filter => TenantRepo.list filter

def IdentityCall.script (now : Time) : (c : IdentityCall Attrs) → Script c.Result
  | .create ident => IdentityRepo.create now ident
  | .getByID tenantID id => IdentityRepo.getByID tenantID id
  | .getByHandle tenantID handle => IdentityRepo.getByHandle tenantID handle
  | .update ident => IdentityRepo.update ident
  | .updateStatus tenantID id status => IdentityRepo.updateStatus tenantID id status
  | .setPrimaryKey tenantID identityID keyID => IdentityRepo.setPrimaryKey tenantID identityID keyID
  | .list tenantID filter => IdentityRepo.list tenantID filter
  | .count tenantID filter => IdentityRepo.count tenantID filter

def KeyCall.script : (c : KeyCall) → Script c.Result
  | .create key => KeyRepo.create key
  | .getByID tenantID id => KeyRepo.getByID tenantID id
  | .getByFingerprint tenantID fingerprint => KeyRepo.getByFingerprint tenantID fingerprint
  | .getActiveByPurpose tenantID identityID purpose =>
    KeyRepo.getActiveByPurpose tenantID identityID purpose
  | .listByIdentity tenantID identityID status => KeyRepo.listByIdentity tenantID identityID status
  | .rotate tenantID oldKeyID newKeyID => KeyRepo.rotate tenantID oldKeyID newKeyID
  | .revoke tenantID keyID => KeyRepo.revoke tenantID keyID
  | .markCompromised tenantID keyID => KeyRepo.markCompromised tenantID keyID

def CredentialCall.script : (c : CredentialCall) → Script c.Result
  | .create cred => CredentialRepo.create cred
  | .getByID tenantID id => CredentialRepo.getByID tenantID id
  | .getWebAuthnByCredentialID tenantID credentialID =>
    CredentialRepo.getWebAuthnByCredentialID tenantID credentialID
  | .listByIdentity tenantID identityID status =>
    CredentialRepo.listByIdentity tenantID identityID status
  | .updateSignCount tenantID credentialID count =>
    CredentialRepo.updateSignCount tenantID credentialID count
  | .updateLastUsed tenantID credentialID at_ =>
    CredentialRepo.updateLastUsed tenantID credentialID at_
  | .revoke tenantID credentialID => CredentialRepo.revoke tenantID credentialID

def AuditCall.script (now : Time) : (c : AuditCall) → Script c.Result
  | .insert event => AuditRepo.insert now event
  | .getByID tenantID id => AuditRepo.getByID tenantID id
  | .listByEntity tenantID entityType entityID limit offset =>
    AuditRepo.listByEntity tenantID entityType entityID limit offset
  | .listByActor tenantID actorID limit offset =>
      AuditRepo.listByActor tenantID actorID limit offset
  | .listByTenant tenantID filter => AuditRepo.listByTenant tenantID filter

def RepoCall.script (now : Time) : (c : RepoCall Attrs) → Script c.Result
  | .tenants c => c.script
  | .identities c => c.script now
  | .keys c => c.script
  | .credentials c => c.script
  | .audit c => c.script now

end Verion.Postgres
