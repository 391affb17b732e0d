import Verion.Service.Requests

/-!
# Protected handlers (internal/transport/http/routes.go, gateway.go)

A request is what a handler reads of it: path values, the `tenant_id` of the
query string (empty when absent) and the body as `json.Decode` leaves it, `none`
when it reports an error. `RequireAuth` puts the verified claims into the
context of the request; no handler here takes them out again.
-/

namespace Verion.Http

open Calls Postgres Service

variable {Attrs : Type}

structure ActorBody where
  tenantID : String
  actorID : String

structure UpdateIdentityBody (Attrs : Type) where
  tenantID : String
  displayName : String
  attributes : Attrs
  version : Int
  actorID : String

structure GenerateKeyBody where
  tenantID : String
  identityID : String
  keyType : String
  purpose : String
  actorID : String

structure RotateKeyBody where
  tenantID : String
  identityID : String
  actorID : String

inductive Request (Attrs : Type) where
  | getTenant (id : String)
  | suspendTenant (id : String)
  | activateTenant (id : String)
  | getIdentity (id tenantID : String)
  | getByHandle (handle tenantID : String)
  | listIdentities (tenantID : String)
  | updateIdentity (id : String) (body : Option (UpdateIdentityBody Attrs))
  | suspendIdentity (id : String) (body : Option ActorBody)
  | reactivateIdentity (id : String) (body : Option ActorBody)
  | deactivateIdentity (id : String) (body : Option ActorBody)
  | generateKey (body : Option GenerateKeyBody)
  | getKey (keyID tenantID : String)
  | rotateKey (keyID : String) (body : Option RotateKeyBody)
  | revokeKey (keyID : String) (body : Option ActorBody)

inductive Payload (Attrs : Type) where
  | error (message : String)
  | status (text : String)
  | tenant (tenant : Tenant)
  | identity (ident : Identity Attrs)
  | identities (idents : List (Identity Attrs)) (total : Nat)
  | key (key : IdentityKey)

structure Response (Attrs : Type) where
  status : Nat
  payload : Payload Attrs

def writeError (status : Nat) (message : String) : Response Attrs :=
  ⟨status, .error message⟩

/-- The cases in the order of the `switch` (`gateway.go:74-101`). -/
def writeServiceError (e : Error) : Response Attrs :=
  if [.notFound, .tenantNotFound, .keyNotFound, .credentialNotFound,
    .recoveryNotFound].any e.is then
    writeError 404 e.message
  else if [.alreadyExists, .handleTaken, .versionConflict].any e.is then writeError 409 e.message
  else if [.invalidInput, .invalidHandle].any e.is then writeError 400 e.message
  else if [.identityTerminal, .tenantInactive, .identityInactive, .keyCompromised,
      .keyNotUsable].any e.is then writeError 422 e.message
  else if e.is .unauthorized then writeError 403 e.message
  else writeError 500 "internal error"

/-! ### Building blocks -/

/-- Call the service; its error goes to `writeServiceError`. -/
def serve {α : Type} (status : Nat) (payload : α → Payload Attrs) (p : Svc Attrs α) :
    Svc Attrs (Response Attrs) := do
  match ← p.attempt with
  | .ok a => .ret ⟨status, payload a⟩
  | .error e => .ret (writeServiceError e)

def withQueryTenant (tenantID : String) (p : Svc Attrs (Response Attrs)) :
    Svc Attrs (Response Attrs) :=
  if tenantID = "" then .ret (writeError 400 "tenant_id query parameter required") else p

def withBody {β : Type} (body : Option β) (p : β → Svc Attrs (Response Attrs)) :
    Svc Attrs (Response Attrs) :=
  match body with
  | none => .ret (writeError 400 "invalid request body")
  | some b => p b

def optionalActor (actorID : String) : Option String :=
  if actorID ≠ "" then some actorID else none

/-! ### Handlers -/

def handleGetTenant (id : String) : Svc Attrs (Response Attrs) :=
  serve 200 .tenant (getTenant id)

def handleSuspendTenant (id : String) : Svc Attrs (Response Attrs) :=
  serve 200 (fun _ => .status "suspended") (suspendTenant id)

def handleActivateTenant (id : String) : Svc Attrs (Response Attrs) :=
  serve 200 (fun _ => .status "active") (activateTenant id)

def handleGetIdentity (P : Primitives Attrs) (id tenantID : String) : Svc Attrs (Response Attrs) :=
  withQueryTenant tenantID (serve 200 .identity (getIdentity P tenantID id))

def handleGetByHandle (P : Primitives Attrs) (handle tenantID : String) :
    Svc Attrs (Response Attrs) :=
  withQueryTenant tenantID (serve 200 .identity (getIdentityByHandle P tenantID handle))

def handleListIdentities (P : Primitives Attrs) (tenantID : String) : Svc Attrs (Response Attrs) :=
  withQueryTenant tenantID
    (serve 200 (fun idents => .identities idents idents.length)
      (listIdentities P tenantID { limit := 50 }))

def updateInput (id : String) (body : UpdateIdentityBody Attrs) : UpdateIdentityInput Attrs :=
  { tenantID := body.tenantID, id, displayName := body.displayName, attributes := body.attributes,
    version := body.version, actorID := optionalActor body.actorID }

def handleUpdateIdentity (P : Primitives Attrs) (id : String)
    (body : Option (UpdateIdentityBody Attrs)) : Svc Attrs (Response Attrs) :=
  withBody body fun body => serve 200 .identity (updateIdentity P (updateInput id body))

def handleSuspendIdentity (id : String) (body : Option ActorBody) : Svc Attrs (Response Attrs) :=
  withBody body fun body =>
    serve 200 (fun _ => .status "suspended") (suspendIdentity body.tenantID id body.actorID)

def handleReactivateIdentity (id : String) (body : Option ActorBody) :
    Svc Attrs (Response Attrs) :=
  withBody body fun body =>
    serve 200 (fun _ => .status "active") (reactivateIdentity body.tenantID id body.actorID)

def handleDeactivateIdentity (id : String) (body : Option ActorBody) :
    Svc Attrs (Response Attrs) :=
  withBody body fun body =>
    serve 200 (fun _ => .status "deactivated") (deactivateIdentity body.tenantID id body.actorID)

def generateInput (body : GenerateKeyBody) : GenerateKeyInput :=
  { tenantID := body.tenantID, identityID := body.identityID, keyType := .ofText body.keyType,
    purpose := .ofText body.purpose, actorID := optionalActor body.actorID }

def handleGenerateKey (body : Option GenerateKeyBody) : Svc Attrs (Response Attrs) :=
  withBody body fun body => serve 201 .key (generateKey (generateInput body))

def handleGetKey (keyID tenantID : String) : Svc Attrs (Response Attrs) :=
  withQueryTenant tenantID (serve 200 .key (getKey tenantID keyID))

def handleRotateKey (keyID : String) (body : Option RotateKeyBody) : Svc Attrs (Response Attrs) :=
  withBody body fun body =>
    serve 200 .key (rotateKey body.tenantID body.identityID keyID body.actorID)

def handleRevokeKey (keyID : String) (body : Option ActorBody) : Svc Attrs (Response Attrs) :=
  withBody body fun body =>
    serve 200 (fun _ => .status "revoked") (revokeKey body.tenantID keyID body.actorID)

def handle (P : Primitives Attrs) : Request Attrs → Svc Attrs (Response Attrs)
  | .getTenant id => handleGetTenant id
  | .suspendTenant id => handleSuspendTenant id
  | .activateTenant id => handleActivateTenant id
  | .getIdentity id tenantID => handleGetIdentity P id tenantID
  | .getByHandle handle tenantID => handleGetByHandle P handle tenantID
  | .listIdentities tenantID => handleListIdentities P tenantID
  | .updateIdentity id body => handleUpdateIdentity P id body
  | .suspendIdentity id body => handleSuspendIdentity id body
  | .reactivateIdentity id body => handleReactivateIdentity id body
  | .deactivateIdentity id body => handleDeactivateIdentity id body
  | .generateKey body => handleGenerateKey body
  | .getKey keyID tenantID => handleGetKey keyID tenantID
  | .rotateKey keyID body => handleRotateKey keyID body
  | .revokeKey keyID body => handleRevokeKey keyID body

end Verion.Http
