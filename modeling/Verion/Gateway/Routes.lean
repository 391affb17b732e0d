import Verion.Auth.Ceremonies

/-!
# The gateway (internal/transport/http: auth_middleware.go, session_handler.go, routes.go)

The public routes are the ceremonies. A protected route first verifies the token
of the `Authorization` header, then looks the session of the token up, and only
then runs its handler. What `TokenService.Verify` makes of a token is a parameter.
-/

namespace Verion.Gateway

open Calls Postgres

open Auth (Claims AuthError)

variable {Attrs α : Type}

structure Deps (Attrs : Type) extends Auth.Deps Attrs where
  verify : String → Time → Option Claims

inductive Op (Attrs : Type) where
  | auth (c : Auth.Op Attrs)
  | verify (token : String)

@[reducible] def Op.Reply : Op Attrs → Type
  | .auth c => c.Reply
  | .verify _ => Option Claims

def exec (D : Deps Attrs) : (c : Op Attrs) → Auth.Env → Auth.World → c.Reply × Auth.World
  | .auth c, e, w => Auth.exec D.toDeps c e w
  | .verify token, e, w => (D.verify token e.svc.now, w)

def ceremonies : Embedding (@Auth.Op.Reply Attrs) (@Op.Reply Attrs) where
  op := .auth
  back _ r := r

def sessionCalls : Embedding (@Redis.Command.Reply String Sessions.Doc) (@Op.Reply Attrs) where
  op c := .auth (.session c)
  back _ r := r

def serviceCalls : Embedding (@Service.Op.Reply Attrs) (@Op.Reply Attrs) where
  op c := .auth (.svc c)
  back _ r := r

abbrev Route (Attrs α : Type) := Program (@Op.Reply Attrs) AuthError α

/-! ### `RequireAuth` -/

def bearerScheme : List Char := "Bearer ".toList

/-- The token of the header, which has to start with the scheme. -/
def bearerToken? (authHeader : String) : Option String :=
  if bearerScheme.isPrefixOf authHeader.toList then
    some (String.ofList (authHeader.toList.drop bearerScheme.length))
  else none

def unauthorized (message : String) : AuthError := .store (.http 401 message)

def authenticate (authHeader : String) : Route Attrs Claims :=
  match bearerToken? authHeader with
  | none => .fail (unauthorized "missing or invalid authorization header")
  | some token => .call (.verify token) fun
    | none => .fail (unauthorized "invalid or expired token")
    | some claims => .ret claims

/-- What the session handlers read of the claims. -/
def tokenSession (claims : Claims) : Sessions.TokenSession :=
  ⟨claims.subject, claims.sessionID⟩

def onSessions (p : Sessions.Store α) : Route Attrs α :=
  p.embed sessionCalls .store

/-! ### Requests -/

inductive Request (Attrs : Type) where
  | ceremony (req : Auth.Request Attrs)
  | listByIdentity (identityID : String)
  | logout (authHeader : String)
  | listSessions (authHeader : String)
  | revokeSession (authHeader sessionID : String)
  | handler (authHeader : String) (req : Http.Request Attrs)

inductive Response (Attrs : Type) where
  | ceremony (resp : Auth.Response Attrs)
  | loggedOut
  | revoked
  | sessions (identityID : String) (sessions : List Sessions.SessionData)
  | http (resp : Http.Response Attrs)

def Request.program (D : Deps Attrs) : Request Attrs → Route Attrs (Response Attrs)
  | .ceremony req => do
    let resp ← (req.program D.toDeps).embed ceremonies id
    .ret (.ceremony resp)
  | .listByIdentity identityID => do
    let sessions ← onSessions (Sessions.listByIdentity identityID)
    .ret (.sessions identityID sessions)
  | .logout authHeader => do
    let claims ← authenticate authHeader
    onSessions (Sessions.logout D.sessionTTL (tokenSession claims))
    .ret .loggedOut
  | .listSessions authHeader => do
    let claims ← authenticate authHeader
    let sessions ← onSessions (Sessions.listSessions D.sessionTTL (tokenSession claims))
    .ret (.sessions claims.subject sessions)
  | .revokeSession authHeader sessionID => do
    let claims ← authenticate authHeader
    onSessions (Sessions.revokeSession D.sessionTTL (tokenSession claims) sessionID)
    .ret .revoked
  | .handler authHeader req => do
    let claims ← authenticate authHeader
    onSessions (Sessions.requireAuth D.sessionTTL (tokenSession claims))
    let resp ← (Http.handle D.primitives req).embed serviceCalls .domain
    .ret (.http resp)

end Verion.Gateway
