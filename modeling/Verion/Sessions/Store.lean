import Verion.Identity.Model
import Verion.Library.Redis

/-!
# Session store (internal/store/session.go, auth_middleware.go, session_handler.go)

A stored text is kept as what `json.Unmarshal` makes of it: a session, or `none`
for a text that is no session.
-/

namespace Verion.Sessions

open Calls Redis

structure SessionData where
  sessionID : String
  identityID : String
  tenantID : String
  handle : String
  createdAt : Time
  lastSeenAt : Time
  deviceInfo : String
  ipAddress : String
deriving DecidableEq

abbrev Doc := Option SessionData

inductive StoreError where
  | sessionNotFound
  | redis (context : String) (e : Failure)
  | unmarshal (context : String)
  | http (status : Nat) (message : String)
deriving DecidableEq

abbrev Store (α : Type) := Program (@Command.Reply String Doc) StoreError α

def key (sessionID : String) : String := "session:" ++ sessionID

def indexKey (identityID : String) : String := "sessions:identity:" ++ identityID

/-! ### SessionStore -/

/-- `pipe.Exec`. -/
def exec (ws : List (Write String Doc)) (context : String) : Store Unit := do
  match ← pipeline ws with
  | none => .ret ()
  | some e => .fail (.redis context e)

def create (ttl : Nat) (data : SessionData) : Store Unit :=
  exec [.set (key data.sessionID) (some data) ttl,
        .sAdd (indexKey data.identityID) data.sessionID,
        .expire (indexKey data.identityID) ttl] "session store: create"

/-- `GET`, with the errors of a missing key and of a text that is no session. -/
def load (sessionID getContext unmarshalContext : String) : Store SessionData :=
  .call (.get (key sessionID)) fun
    | .error e => .fail (.redis getContext e)
    | .ok none => .fail .sessionNotFound
    | .ok (some none) => .fail (.unmarshal unmarshalContext)
    | .ok (some (some data)) => .ret data

/-- The refreshing `SET` is best effort: its error is dropped (`session.go:86-92`). -/
def get (ttl : Nat) (sessionID : String) : Store SessionData := do
  let data ← load sessionID "session store: get" "session store: unmarshal"
  let now ← .call .now .ret
  let data := { data with lastSeenAt := now }
  let _ ← .call (.write (.set (key sessionID) (some data) ttl)) .ret
  .ret data

def delete (sessionID : String) : Store Unit := do
  let data ← load sessionID "session store: delete get" "session store: delete unmarshal"
  exec [.del (key sessionID), .sRem (indexKey data.identityID) sessionID] "session store: delete"

def deleteAll (identityID : String) : Store Unit :=
  .call (.sMembers (indexKey identityID)) fun
    | .error e => .fail (.redis "session store: delete all: list sessions" e)
    | .ok [] => .ret ()
    | .ok sessionIDs =>
      exec (sessionIDs.map (fun sid => .del (key sid)) ++ [.del (indexKey identityID)])
        "session store: delete all"

/-- The loop of `ListByIdentity`: a stale index entry is removed, a text that is no
session is skipped (`session.go:154-169`). -/
def listFrom (identityID : String) : List String → Store (List SessionData)
  | [] => .ret []
  | sid :: sids => .call (.get (key sid)) fun
    | .error e => .fail (.redis ("session store: list get " ++ sid) e)
    | .ok none => .call (.write (.sRem (indexKey identityID) sid)) fun _ => listFrom identityID sids
    | .ok (some none) => listFrom identityID sids
    | .ok (some (some data)) => do
      let rest ← listFrom identityID sids
      .ret (data :: rest)

def listByIdentity (identityID : String) : Store (List SessionData) :=
  .call (.sMembers (indexKey identityID)) fun
    | .error e => .fail (.redis "session store: list" e)
    | .ok sessionIDs => listFrom identityID sessionIDs

/-! ### Handlers -/

/-- What of a verified token the session handlers read. -/
structure TokenSession where
  subject : String
  sessionID : String

/-- `RequireAuth` after the token is verified: a token without `sid` is not looked up
(`auth_middleware.go:35-41`). -/
def requireAuth (ttl : Nat) (claims : TokenSession) : Store Unit :=
  if claims.sessionID = "" then .ret ()
  else do
    match ← (get ttl claims.sessionID).attempt with
    | .ok _ => .ret ()
    | .error _ => .fail (.http 401 "session expired or revoked")

/-- A failed deletion is only logged (`session_handler.go:30-36`). -/
def logout (ttl : Nat) (claims : TokenSession) : Store Unit := do
  requireAuth ttl claims
  let _ ← (delete claims.sessionID).attempt
  .ret ()

def listSessions (ttl : Nat) (claims : TokenSession) : Store (List SessionData) := do
  requireAuth ttl claims
  match ← (listByIdentity claims.subject).attempt with
  | .ok sessions => .ret sessions
  | .error _ => .fail (.http 500 "internal error")

def revokeSession (ttl : Nat) (claims : TokenSession) (sessionID : String) : Store Unit := do
  requireAuth ttl claims
  if sessionID = "" then .fail (.http 400 "session_id is required")
  else do
    match ← (get ttl sessionID).attempt with
    | .error _ => .fail (.http 404 "session not found")
    | .ok session =>
      if session.identityID ≠ claims.subject then
        .fail (.http 403 "cannot revoke another identity's session")
      else do
        match ← (delete sessionID).attempt with
        | .error _ => .fail (.http 500 "internal error")
        | .ok () => .ret ()

/-! ### Requests -/

inductive Request where
  | create (data : SessionData)
  | get (sessionID : String)
  | delete (sessionID : String)
  | deleteAll (identityID : String)
  | listByIdentity (identityID : String)
  | requireAuth (claims : TokenSession)
  | logout (claims : TokenSession)
  | listSessions (claims : TokenSession)
  | revokeSession (claims : TokenSession) (sessionID : String)

/-- The sessions a request returns. -/
def respond {α : Type} (f : α → List SessionData) (p : Store α) : Store (List SessionData) := do
  let a ← p
  .ret (f a)

def Request.program (ttl : Nat) : Request → Store (List SessionData)
  | .create data => respond (fun _ => []) (Sessions.create ttl data)
  | .get sessionID => respond (fun session => [session]) (Sessions.get ttl sessionID)
  | .delete sessionID => respond (fun _ => []) (Sessions.delete sessionID)
  | .deleteAll identityID => respond (fun _ => []) (Sessions.deleteAll identityID)
  | .listByIdentity identityID => respond id (Sessions.listByIdentity identityID)
  | .requireAuth claims => respond (fun _ => []) (Sessions.requireAuth ttl claims)
  | .logout claims => respond (fun _ => []) (Sessions.logout ttl claims)
  | .listSessions claims => respond id (Sessions.listSessions ttl claims)
  | .revokeSession claims sessionID =>
    respond (fun _ => []) (Sessions.revokeSession ttl claims sessionID)

/-- `Create` sets one record. -/
theorem create_sets (ttl : Nat) (data : SessionData) :
    (create ttl data).Only fun c =>
      ∀ k doc t, c = .write (.set k doc t) → k = key data.sessionID ∧ doc = some data := by
  refine Program.Only.bind (only_pipeline fun w hw => ?_) fun r => by cases r <;> trivial
  simp only [List.mem_cons, List.not_mem_nil, or_false] at hw
  rcases hw with rfl | rfl | rfl
  · rintro k doc t ⟨⟩
    exact ⟨rfl, rfl⟩
  · exact fun _ _ _ h => nomatch h
  · exact fun _ _ _ h => nomatch h

/-! ### Keys -/

theorem key_injective {a b : String} (h : key a = key b) : a = b :=
  (String.append_right_inj _).mp h

theorem indexKey_injective {a b : String} (h : indexKey a = indexKey b) : a = b :=
  (String.append_right_inj _).mp h

/-- The two families of keys differ in their eighth character. -/
theorem key_ne_indexKey (sessionID identityID : String) : key sessionID ≠ indexKey identityID := by
  unfold key indexKey
  intro h
  have heighth := congrArg (fun s => s.toList[7]?) h
  simp [String.toList_append] at heighth

def adaSession : SessionData where
  sessionID := "s"
  identityID := "ada"
  tenantID := "acme"
  handle := "ada"
  createdAt := 0
  lastSeenAt := 0
  deviceInfo := ""
  ipAddress := ""

end Verion.Sessions
