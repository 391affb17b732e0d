import Verion.Auth.World

/-!
# WebAuthn service (internal/auth/webauthn.go)

Registration and assertion, each begun in one request and finished in another;
the session of the library waits in Redis in between.
-/

namespace Verion.Auth

open Calls Postgres Service

variable {Attrs α : Type}

inductive AuthError where
  | domain (e : Error)
  | challengeNotFound
  | redis (e : Redis.Failure)
  | unmarshal
  | library (text : String)
  | entropy
  | cloneDetected
  | store (e : Sessions.StoreError)
  | wrap (context : String) (e : AuthError)

/-- The error as `errors.Is` and `Error()` see it. -/
def AuthError.toError : AuthError → Error
  | .domain e => e
  | .challengeNotFound => .text "store: challenge not found or already consumed"
  | .redis _ => .text "redis"
  | .unmarshal => .text "json"
  | .library text => .text text
  | .entropy => .text "entropy"
  | .cloneDetected => .text "auth: authenticator clone detected — sign count regression"
  | .store _ => .text "session store"
  | .wrap context e => .wrap context e.toError

abbrev Ceremony (Attrs α : Type) := Program (@Op.Reply Attrs) AuthError α

/-! ### Calls -/

def service (p : Svc Attrs α) (context : String) : Ceremony Attrs α :=
  p.embed services fun e => .wrap context (.domain e)

def repo (c : RepoCall Attrs) (context : String) : Ceremony Attrs c.Result :=
  service (Service.repo c fun e => e) context

/-- `_ = call`. -/
def dropError (c : RepoCall Attrs) : Ceremony Attrs Unit :=
  .call (.svc (.repo c)) fun _ => .ret ()

def now : Ceremony Attrs Time :=
  .call (.svc .now) .ret

def refuseIf (cond : Prop) [Decidable cond] (e : AuthError) : Ceremony Attrs Unit :=
  if cond then .fail e else .ret ()

def orFail (f : String → AuthError) : Except String α → Ceremony Attrs α
  | .ok a => .ret a
  | .error text => .fail (f text)

/-! ### Challenges (internal/store/redis.go) -/

def challengeTTL : Nat := 300000000000

def challengeKey (challengeID : String) : String := "webauthn:challenge:" ++ challengeID

def generateChallengeID : Ceremony Attrs String :=
  .call .random fun
    | none => .fail (.wrap "generate challenge id" .entropy)
    | some bytes => .ret (hexText bytes)

def setChallenge (challengeID : String) (session : LibrarySession) (ttl : Nat) (context : String) :
    Ceremony Attrs Unit :=
  .call (.setChallenge (challengeKey challengeID) session ttl) fun
    | .error e => .fail (.wrap context (.wrap "store: set challenge" (.redis e)))
    | .ok () => .ret ()

/-- `GetChallenge` and the decoding of what it returned. -/
def getChallenge (challengeID getContext unmarshalContext : String) :
    Ceremony Attrs LibrarySession :=
  .call (.getDelChallenge (challengeKey challengeID)) fun
    | .error e => .fail (.wrap getContext (.wrap "store: get challenge" (.redis e)))
    | .ok none => .fail (.wrap getContext .challengeNotFound)
    | .ok (some none) => .fail (.wrap unmarshalContext .unmarshal)
    | .ok (some (some session)) => .ret session

/-! ### Users (`webauthn.go:317-351`) -/

def textBytes (s : String) : Bytes := s.toUTF8.data.toList

def verionUser (ident : Identity Attrs) (credentials : List LibraryCredential) : LibraryUser where
  id := textBytes ident.id
  name := ident.handle
  displayName := ident.displayName
  credentials := credentials

def newVerionUser (ident : Identity Attrs) (creds : List Credential) : LibraryUser :=
  verionUser ident (creds.map fun c => { id := c.credentialID })

def domainCredToWebAuthn (c : Credential) : LibraryCredential where
  id := c.credentialID
  publicKey := c.data
  attestationType := "none"
  aaguid := []
  signCount := UInt32.ofInt c.signCount

def newVerionUserWithCreds (ident : Identity Attrs) (creds : List Credential) : LibraryUser :=
  verionUser ident (creds.map domainCredToWebAuthn)

/-! ### Registration -/

/-- Keep the session of the library for the request that finishes the ceremony. -/
def keepChallenge (session : LibrarySession) (context : String) : Ceremony Attrs String := do
  let sessionID ← generateChallengeID
  setChallenge sessionID session challengeTTL context
  .ret sessionID

def beginRegistration (P : Primitives Attrs) (tenantID identityID : String) :
    Ceremony Attrs (Bytes × String) := do
  let ident ← service (getIdentity P tenantID identityID) "webauthn: begin registration"
  refuseIf (ident.status ≠ .active) (.domain (.sentinel .identityInactive))
  let existingCreds ← repo (.credentials (.listByIdentity tenantID identityID none))
    "webauthn: list credentials"
  let reply ← .call (.beginRegistration (newVerionUser ident existingCreds)) .ret
  let (creation, session) ← orFail (fun t => .wrap "webauthn: begin registration"
      (.library t)) reply
  let sessionID ← keepChallenge session "webauthn: store challenge"
  .ret (creation, sessionID)

structure FinishRegistrationResult where
  credential : Credential
  identityID : String
  handle : String
  type : IdentityType

/-- `PublicKeyJWK` and `KeyRef` of the key are not set (`webauthn.go:142-147`). -/
def registeredKey (P : Primitives Attrs) (tenantID identityID : String)
    (credential : LibraryCredential) : IdentityKey :=
  { tenantID, identityID, keyType := .ecdsaP256, purpose := .authentication, algorithm := "ES256",
    publicKey := credential.publicKey,
    fingerprint := hexText (P.sha256 (credential.publicKey.getD [])), status := .active }

/-- `DataIV` is not set (`webauthn.go:161-167`). -/
def registeredCredential (tenantID identityID keyID : String) (credential : LibraryCredential) :
    Credential :=
  { identityID, tenantID, keyID := some keyID, type := .passkey, status := .active,
    data := credential.publicKey, credentialID := credential.id,
    signCount := credential.signCount.toNat, aaguid := some (hexText credential.aaguid),
    name := some "Passkey" }

def finishRegistration (P : Primitives Attrs) (tenantID identityID sessionID : String)
    (body : Bytes) : Ceremony Attrs FinishRegistrationResult := do
  let ident ← service (getIdentity P tenantID identityID) "webauthn: finish: load identity"
  let existingCreds ← repo (.credentials (.listByIdentity tenantID identityID none))
    "webauthn: finish: list credentials"
  let session ← getChallenge sessionID "webauthn: finish: get challenge"
    "webauthn: finish: unmarshal session"
  let reply ← .call (.finishRegistration (newVerionUser ident existingCreds) session body) .ret
  let credential ←
    orFail (fun t => .wrap "webauthn: finish: verification failed" (.library t)) reply
  let createdKey ← repo (.keys (.create (registeredKey P tenantID identityID credential)))
    "webauthn: finish: create key"
  (if ident.primaryKeyID = none then
    repo (.identities (.setPrimaryKey tenantID identityID createdKey.id))
      "webauthn: finish: set primary key"
  else .ret ())
  let createdCred ← repo
    (.credentials (.create (registeredCredential tenantID identityID createdKey.id credential)))
    "webauthn: finish: create credential"
  dropError (.audit (.insert
    { tenantID, eventType := "credential.created", entityType := "credential",
      entityID := createdCred.id, actorID := some identityID, success := true }))
  .ret ⟨createdCred, identityID, ident.handle, ident.type⟩

/-! ### Assertion -/

def isPasskey (c : Credential) : Bool :=
  c.type == .passkey || c.type == .hardwareToken

/-- The active passkeys and tokens of an identity. -/
def passkeys (tenantID identityID context : String) : Ceremony Attrs (List Credential) := do
  let allCreds ← repo (.credentials (.listByIdentity tenantID identityID (some .active))) context
  .ret (allCreds.filter isPasskey)

def beginAssertion (P : Primitives Attrs) (tenantID handle : String) :
    Ceremony Attrs (Bytes × String) := do
  let ident ← service (getIdentityByHandle P tenantID handle) "webauthn: begin assertion"
  refuseIf (ident.status ≠ .active) (.domain (.sentinel .identityInactive))
  let passkeyCreds ← passkeys tenantID ident.id "webauthn: begin assertion: list"
  let reply ←
    (if passkeyCreds = [] then .call .beginDiscoverableLogin .ret
    else .call (.beginLogin (newVerionUserWithCreds ident passkeyCreds)) .ret)
  let (assertion, session) ← orFail (fun t => .wrap "webauthn: begin assertion" (.library t)) reply
  let sessionID ← keepChallenge session "webauthn: begin assertion: store"
  .ret (assertion, sessionID)

def authEvent (tenantID identityID eventType : String) (success : Bool) : AuditEvent :=
  { tenantID, eventType, entityType := "identity", entityID := identityID,
    actorID := some identityID, success }

/-- The counter check and the two updates; their errors are dropped (`webauthn.go:286-304`). -/
def advanceCounter (tenantID identityID : String) (stored : Credential) (newCount : UInt32) :
    Ceremony Attrs Unit :=
  if newCount ≠ 0 ∧ newCount ≤ UInt32.ofInt stored.signCount then do
    dropError (.audit (.insert (authEvent tenantID identityID "auth.failure" false)))
    .fail .cloneDetected
  else do
    dropError (.credentials (.updateSignCount tenantID stored.id newCount.toNat))
    let at_ ← now
    dropError (.credentials (.updateLastUsed tenantID stored.id at_))

def finishAssertion (P : Primitives Attrs) (tenantID handle sessionID : String) (body : Bytes) :
    Ceremony Attrs (Identity Attrs) := do
  let ident ← service (getIdentityByHandle P tenantID handle) "webauthn: finish assertion"
  refuseIf (ident.status ≠ .active) (.domain (.sentinel .identityInactive))
  let passkeyCreds ← passkeys tenantID ident.id "webauthn: finish assertion: list"
  let session ← getChallenge sessionID "webauthn: finish assertion: get challenge"
    "webauthn: finish assertion: unmarshal"
  let reply ← .call (.finishLogin (newVerionUserWithCreds ident passkeyCreds) session body) .ret
  match reply with
  | .error text =>
    dropError (.audit (.insert (authEvent tenantID ident.id "auth.failure" false)))
    .fail (.wrap "webauthn: finish assertion: verify" (.library text))
  | .ok credential =>
    (match passkeyCreds.find? fun c => c.credentialID.getD [] == credential.id.getD [] with
    | some stored => advanceCounter tenantID ident.id stored credential.signCount
    | none => .ret ())
    dropError (.audit (.insert (authEvent tenantID ident.id "auth.success" true)))
    .ret ident

/-! ### Handlers (webauthn_handler.go, login_handler.go) -/

/-- What the two `Complete` handlers read of a request besides their headers. -/
structure HttpRequest where
  body : Bytes
  userAgent : String
  remoteAddr : String

inductive HttpPayload where
  | error (message : String)
  | options (options : Bytes) (sessionID : String)
  | registered (credentialID : String) (type : CredentialType) (createdAt : Time)
      (token sessionID : String)
  | authenticated (identityID tenantID handle token sessionID : String)

structure HttpResponse where
  status : Nat
  payload : HttpPayload

def writeError (status : Nat) (message : String) : HttpResponse :=
  ⟨status, .error message⟩

def writeServiceError (e : AuthError) : HttpResponse :=
  let r : Http.Response Unit := Http.writeServiceError e.toError
  ⟨r.status, .error (match r.payload with
    | .error message => message
    | _ => "")⟩

/-- A failing random source makes it panic. -/
def generateSessionID : Ceremony Attrs String :=
  .call .random fun
    | none => .fail .entropy
    | some b => .ret ("-".intercalate [hexText (b.take 4), hexText ((b.drop 4).take 2),
        hexText ((b.drop 6).take 2), hexText ((b.drop 8).take 2), hexText (b.drop 10)])

/-- Create the session, then issue the token that carries its identifier. -/
def openSession (ttl : Nat) (identityID tenantID handle : String) (r : HttpRequest)
    (claims : Claims) (answer : String → String → HttpResponse) : Ceremony Attrs HttpResponse := do
  let authSessionID ← generateSessionID
  let createdAt ← now
  let lastSeenAt ← now
  let created ← ((Sessions.create ttl
    { sessionID := authSessionID, identityID, tenantID, handle, createdAt, lastSeenAt,
      deviceInfo := r.userAgent, ipAddress := r.remoteAddr }).embed sessionStore .store).attempt
  match created with
  | .error _ => .ret (writeError 500 "session creation failed")
  | .ok _ => do
    let token ← .call (.issue claims authSessionID) .ret
    .ret (answer token authSessionID)

def registerBegin (P : Primitives Attrs) (body : Option (String × String)) :
    Ceremony Attrs HttpResponse :=
  match body with
  | none => .ret (writeError 400 "invalid request body")
  | some (tenantID, identityID) =>
    if tenantID = "" ∨ identityID = "" then
      .ret (writeError 400 "tenant_id and identity_id are required")
    else do
      match ← (beginRegistration P tenantID identityID).attempt with
      | .error e => .ret (writeServiceError e)
      | .ok (options, sessionID) => .ret ⟨200, .options options sessionID⟩

def registerComplete (P : Primitives Attrs) (ttl : Nat) (tenantID identityID sessionID : String)
    (r : HttpRequest) : Ceremony Attrs HttpResponse :=
  if tenantID = "" ∨ identityID = "" ∨ sessionID = "" then
    .ret (writeError 400 "X-Tenant-ID, X-Identity-ID, and X-Session-ID headers required")
  else do
    match ← (finishRegistration P tenantID identityID sessionID r.body).attempt with
    | .error e => .ret (writeServiceError e)
    | .ok result =>
      openSession ttl result.identityID tenantID result.handle r
        { subject := result.identityID, tenantID, handle := result.handle,
          type := result.type.text }
        fun token sid => ⟨201, .registered result.credential.id result.credential.type
          result.credential.createdAt token sid⟩

def loginBegin (P : Primitives Attrs) (body : Option (String × String)) :
    Ceremony Attrs HttpResponse :=
  match body with
  | none => .ret (writeError 400 "invalid request body")
  | some (tenantID, handle) =>
    if tenantID = "" ∨ handle = "" then .ret (writeError 400 "tenant_id and handle are required")
    else do
      match ← (beginAssertion P tenantID handle).attempt with
      | .error e => .ret (writeServiceError e)
      | .ok (options, sessionID) => .ret ⟨200, .options options sessionID⟩

/-- `ErrCloneDetected` is answered without its reason (`login_handler.go:54-57`). -/
def loginError : AuthError → HttpResponse
  | .cloneDetected => writeError 403 "authentication failed"
  | e => writeServiceError e

def loginComplete (P : Primitives Attrs) (ttl : Nat) (tenantID handle sessionID : String)
    (r : HttpRequest) : Ceremony Attrs HttpResponse :=
  if tenantID = "" ∨ handle = "" ∨ sessionID = "" then
    .ret (writeError 400 "X-Tenant-ID, X-Handle, and X-Session-ID headers required")
  else do
    match ← (finishAssertion P tenantID handle sessionID r.body).attempt with
    | .error e => .ret (loginError e)
    | .ok ident =>
      openSession ttl ident.id tenantID ident.handle r
        { subject := ident.id, tenantID := ident.tenantID, handle := ident.handle,
          type := ident.type.text }
        fun token sid => ⟨200, .authenticated ident.id ident.tenantID ident.handle token sid⟩

/-! ### Requests -/

inductive Request (Attrs : Type) where
  | service (req : Service.Request Attrs)
  | beginRegistration (tenantID identityID : String)
  | finishRegistration (tenantID identityID sessionID : String) (body : Bytes)
  | beginAssertion (tenantID handle : String)
  | finishAssertion (tenantID handle sessionID : String) (body : Bytes)
  | registerBegin (body : Option (String × String))
  | registerComplete (tenantID identityID sessionID : String) (r : HttpRequest)
  | loginBegin (body : Option (String × String))
  | loginComplete (tenantID handle sessionID : String) (r : HttpRequest)

inductive Response (Attrs : Type) where
  | service (resp : Service.Response Attrs)
  | options (options : Bytes) (sessionID : String)
  | registered (result : FinishRegistrationResult)
  | asserted (ident : Identity Attrs)
  | http (resp : HttpResponse)

def respond (f : α → Response Attrs) (p : Ceremony Attrs α) : Ceremony Attrs (Response Attrs) := do
  let a ← p
  .ret (f a)

def Request.program (D : Deps Attrs) : Request Attrs → Ceremony Attrs (Response Attrs)
  | .service req => respond .service ((req.program D.primitives).embed services .domain)
  | .beginRegistration tenantID identityID =>
    respond (fun r => .options r.1 r.2) (Auth.beginRegistration D.primitives tenantID identityID)
  | .finishRegistration tenantID identityID sessionID body =>
    respond .registered (Auth.finishRegistration D.primitives tenantID identityID sessionID body)
  | .beginAssertion tenantID handle =>
    respond (fun r => .options r.1 r.2) (Auth.beginAssertion D.primitives tenantID handle)
  | .finishAssertion tenantID handle sessionID body =>
    respond .asserted (Auth.finishAssertion D.primitives tenantID handle sessionID body)
  | .registerBegin body => respond .http (Auth.registerBegin D.primitives body)
  | .registerComplete tenantID identityID sessionID r =>
    respond .http (Auth.registerComplete D.primitives D.sessionTTL tenantID identityID sessionID r)
  | .loginBegin body => respond .http (Auth.loginBegin D.primitives body)
  | .loginComplete tenantID handle sessionID r =>
    respond .http (Auth.loginComplete D.primitives D.sessionTTL tenantID handle sessionID r)

end Verion.Auth
