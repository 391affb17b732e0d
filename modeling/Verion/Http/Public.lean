import Verion.Http.Handlers
import Verion.Library.Fronts

/-!
# Public handlers (internal/transport/http/routes.go)

The routes that `RequireAuth` does not guard, apart from the ceremonies: anyone may create
tenants and identities.
-/

namespace Verion.Http

open Calls Service

variable {Attrs : Type}

structure CreateTenantBody where
  name : String
  slug : String
  tier : String
  dataRegion : String

structure CreateIdentityBody (Attrs : Type) where
  tenantID : String
  type : String
  displayName : String
  handle : String
  createdBy : String
  attributes : Attrs

inductive PublicRequest (Attrs : Type) where
  | healthz
  | createTenant (body : Option CreateTenantBody)
  | createIdentity (body : Option (CreateIdentityBody Attrs))

inductive PublicPayload (Attrs : Type) where
  | health (status version : String)
  | identityWithKeys (created : IdentityWithKeys Attrs)
  | plain (payload : Payload Attrs)

structure PublicResponse (Attrs : Type) where
  status : Nat
  payload : PublicPayload Attrs

def Response.toPublic (r : Response Attrs) : PublicResponse Attrs :=
  ⟨r.status, .plain r.payload⟩

def handleHealthz : Svc Attrs (PublicResponse Attrs) :=
  .ret ⟨200, .health "ok" "0.2.0"⟩

def tenantInput (body : CreateTenantBody) : CreateTenantInput :=
  { name := body.name, slug := body.slug, tier := .ofText body.tier, dataRegion := body.dataRegion }

def handleCreateTenant (body : Option CreateTenantBody) : Svc Attrs (PublicResponse Attrs) := do
  let resp ← withBody body fun body => serve 201 .tenant (createTenant (tenantInput body))
  .ret resp.toPublic

def identityInput (body : CreateIdentityBody Attrs) : CreateIdentityInput Attrs :=
  { tenantID := body.tenantID, type := .ofText body.type, displayName := body.displayName,
    handle := body.handle, createdBy := optionalActor body.createdBy,
    attributes := body.attributes }

def handleCreateIdentity (P : Primitives Attrs) (body : Option (CreateIdentityBody Attrs)) :
    Svc Attrs (PublicResponse Attrs) :=
  match body with
  | none => .ret (writeError 400 "invalid request body").toPublic
  | some body => do
    match ← (createIdentity P (identityInput body)).attempt with
    | .ok created => .ret ⟨201, .identityWithKeys created⟩
    | .error e => .ret (writeServiceError e).toPublic

def handlePublic (P : Primitives Attrs) : PublicRequest Attrs → Svc Attrs (PublicResponse Attrs)
  | .healthz => handleHealthz
  | .createTenant body => handleCreateTenant body
  | .createIdentity body => handleCreateIdentity P body

/-! ### The gateway as a front of the services -/

/-- The routes that end in a call of a service, or in none; what `RequireAuth` does before a
guarded one is not part of it. -/
inductive Endpoint (Attrs : Type) where
  | guarded (req : Request Attrs)
  | unguarded (req : PublicRequest Attrs)

def Endpoint.handle (P : Primitives Attrs) : Endpoint Attrs → Svc Attrs (PublicResponse Attrs)
  | .guarded req => do
    let resp ← Http.handle P req
    .ret resp.toPublic
  | .unguarded req => handlePublic P req

/-- The body for what a service returned; `text` is what a handler says of a call that
returns nothing. No route lists keys. -/
def payloadOf (text : String) : Service.Response Attrs → PublicPayload Attrs
  | .tenant t => .plain (.tenant t)
  | .identity ident => .plain (.identity ident)
  | .identities idents => .plain (.identities idents idents.length)
  | .identityWithKeys created => .identityWithKeys created
  | .key key => .plain (.key key)
  | .keys _ | .none => .plain (.status text)

def outcome (status : Nat) (text : String) :
    Except Error (Service.Response Attrs) → PublicResponse Attrs
  | .ok resp => ⟨status, payloadOf text resp⟩
  | .error e => (writeServiceError e).toPublic

abbrev Forwarded (Attrs : Type) :=
  Forward (Service.Request Attrs) Error (Service.Response Attrs) (PublicResponse Attrs)

def pass (status : Nat) (text : String) (req : Service.Request Attrs) : Forwarded Attrs :=
  .pass req (outcome status text)

def withTenant (tenantID : String) (f : Forwarded Attrs) : Forwarded Attrs :=
  if tenantID = "" then .answer (writeError 400 "tenant_id query parameter required").toPublic
  else f

def decoded {β : Type} (body : Option β) (f : β → Forwarded Attrs) : Forwarded Attrs :=
  match body with
  | none => .answer (writeError 400 "invalid request body").toPublic
  | some b => f b

def Request.forward : Request Attrs → Forwarded Attrs
  | .getTenant id => pass 200 "" (.getTenant id)
  | .suspendTenant id => pass 200 "suspended" (.suspendTenant id)
  | .activateTenant id => pass 200 "active" (.activateTenant id)
  | .getIdentity id tenantID => withTenant tenantID (pass 200 "" (.getIdentity tenantID id))
  | .getByHandle handle tenantID =>
    withTenant tenantID (pass 200 "" (.getIdentityByHandle tenantID handle))
  | .listIdentities tenantID =>
    withTenant tenantID (pass 200 "" (.listIdentities tenantID { limit := 50 }))
  | .updateIdentity id body =>
    decoded body fun body => pass 200 "" (.updateIdentity (updateInput id body))
  | .suspendIdentity id body =>
    decoded body fun body => pass 200 "suspended" (.suspendIdentity body.tenantID id body.actorID)
  | .reactivateIdentity id body =>
    decoded body fun body => pass 200 "active" (.reactivateIdentity body.tenantID id body.actorID)
  | .deactivateIdentity id body => decoded body fun body =>
    pass 200 "deactivated" (.deactivateIdentity body.tenantID id body.actorID)
  | .generateKey body => decoded body fun body => pass 201 "" (.generateKey (generateInput body))
  | .getKey keyID tenantID => withTenant tenantID (pass 200 "" (.getKey tenantID keyID))
  | .rotateKey keyID body => decoded body fun body =>
    pass 200 "" (.rotateKey body.tenantID body.identityID keyID body.actorID)
  | .revokeKey keyID body =>
    decoded body fun body => pass 200 "revoked" (.revokeKey body.tenantID keyID body.actorID)

def PublicRequest.forward : PublicRequest Attrs → Forwarded Attrs
  | .healthz => .answer ⟨200, .health "ok" "0.2.0"⟩
  | .createTenant body => decoded body fun body => pass 201 "" (.createTenant (tenantInput body))
  | .createIdentity body =>
    decoded body fun body => pass 201 "" (.createIdentity (identityInput body))

def Endpoint.forward : Endpoint Attrs → Forwarded Attrs
  | .guarded req => req.forward
  | .unguarded req => req.forward

section Fronts

variable {P : Primitives Attrs}

/-- The program that `front` makes of what a route forwards. -/
def Forwarded.program (P : Primitives Attrs) (f : Forwarded Attrs) :
    Svc Attrs (PublicResponse Attrs) :=
  front (Service.Request.program P) (fun _ : Unit => f) ()

theorem serve_eq_pass {α : Type} {status : Nat} {text : String} {f : α → Service.Response Attrs}
    {payload : α → Payload Attrs} {req : Service.Request Attrs} {p : Svc Attrs α}
    (hreq : req.program P = respond f p) (h : ∀ a, payloadOf text (f a) = .plain (payload a)) :
    (serve status payload p >>= fun resp => .ret resp.toPublic) =
      (pass status text req).program P := by
  show _ = ((req.program P).attempt >>= fun r => .ret (outcome status text r))
  rw [hreq, attempt_respond_bind, serve, Program.bind_assoc]
  refine congrArg (p.attempt >>= ·) (funext fun r => ?_)
  cases r with
  | ok a =>
    show Program.ret ⟨status, .plain (payload a)⟩ =
      .ret (⟨status, payloadOf text (f a)⟩ : PublicResponse Attrs)
    rw [h a]
  | error e => rfl

theorem withQueryTenant_eq {tenantID : String} {p : Svc Attrs (Response Attrs)}
    {f : Forwarded Attrs} (h : (p >>= fun resp => .ret resp.toPublic) = f.program P) :
    (withQueryTenant tenantID p >>= fun resp => .ret resp.toPublic) =
      (withTenant tenantID f).program P := by
  unfold withQueryTenant withTenant
  split
  · rfl
  · exact h

theorem withBody_eq {β : Type} {body : Option β} {p : β → Svc Attrs (Response Attrs)}
    {f : β → Forwarded Attrs}
    (h : ∀ b, (p b >>= fun resp => .ret resp.toPublic) = (f b).program P) :
    (withBody body p >>= fun resp => .ret resp.toPublic) = (decoded body f).program P := by
  cases body with
  | none => rfl
  | some b => exact h b

theorem Request.handle_eq (req : Request Attrs) :
    (Http.handle P req >>= fun resp => .ret resp.toPublic) = req.forward.program P := by
  cases req with
  | getTenant | suspendTenant | activateTenant => exact serve_eq_pass rfl fun _ => rfl
  | getIdentity | getByHandle | listIdentities | getKey =>
    exact withQueryTenant_eq (serve_eq_pass rfl fun _ => rfl)
  | updateIdentity | suspendIdentity | reactivateIdentity | deactivateIdentity | generateKey
    | rotateKey | revokeKey => exact withBody_eq fun _ => serve_eq_pass rfl fun _ => rfl

theorem PublicRequest.handle_eq (req : PublicRequest Attrs) :
    handlePublic P req = req.forward.program P := by
  cases req with
  | healthz => rfl
  | createTenant body => exact withBody_eq fun _ => serve_eq_pass rfl fun _ => rfl
  | createIdentity body =>
    cases body with
    | none => rfl
    | some body =>
      show _ = ((Service.Request.createIdentity (identityInput body)).program P).attempt >>=
        fun r => .ret (outcome 201 "" r)
      rw [Service.Request.program, attempt_respond_bind]
      refine congrArg (Program.attempt _ >>= ·) (funext fun r => ?_)
      cases r <;> rfl

theorem Endpoint.handle_eq_front (P : Primitives Attrs) (req : Endpoint Attrs) :
    req.handle P = front (Service.Request.program P) Endpoint.forward req := by
  cases req with
  | guarded req => exact req.handle_eq
  | unguarded req => exact req.handle_eq

end Fronts

end Verion.Http
