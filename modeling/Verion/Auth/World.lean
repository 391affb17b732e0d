import Verion.Http.Handlers
import Verion.Library.Embedding
import Verion.Sessions.Store

/-!
# What the ceremonies call (internal/auth, internal/store/redis.go)

The WebAuthn service uses the identity service and the repositories, the Redis
keys of the challenges, the go-webauthn library and the random source; its
handlers also create sessions and tokens. The library is a parameter. A stored
challenge is kept as what `json.Unmarshal` makes of its text.
-/

namespace Verion.Auth

open Calls Postgres Service

variable {Attrs α : Type}

/-! ### go-webauthn -/

/-- `webauthn.Credential`; a nil slice is `none`. -/
structure LibraryCredential where
  id : Option Bytes
  publicKey : Option Bytes := none
  attestationType : String := ""
  aaguid : Bytes := []
  signCount : UInt32 := 0
  backupEligible : Bool := false
deriving DecidableEq

/-- What the library asks of a `webauthn.User`. -/
structure LibraryUser where
  id : Bytes
  name : String
  displayName : String
  credentials : List LibraryCredential
deriving DecidableEq

/-- `webauthn.SessionData`. -/
structure LibrarySession where
  challenge : String
  userID : Bytes
  allowedCredentialIDs : List Bytes
deriving DecidableEq

/-- The library calls: beginning a ceremony draws a challenge and yields the options for
the client with the session to keep; finishing one reads the body of the request. -/
structure Library where
  beginRegistration : LibraryUser → Bytes → Except String (Bytes × LibrarySession)
  beginLogin : LibraryUser → Bytes → Except String (Bytes × LibrarySession)
  beginDiscoverableLogin : Bytes → Except String (Bytes × LibrarySession)
  finishRegistration : LibraryUser → LibrarySession → Bytes → Time → Except String LibraryCredential
  finishLogin : LibraryUser → LibrarySession → Bytes → Time → Except String LibraryCredential

/-! ### Tokens (internal/auth/jwt.go) -/

structure Claims where
  subject : String
  issuedAt : Int := 0
  expiresAt : Int := 0
  issuer : String := ""
  tenantID : String
  handle : String
  type : String
  sessionID : String := ""
deriving DecidableEq

/-- The token service: its configuration and what it makes of the claims it signs. -/
structure TokenService where
  ttl : Time
  issuer : String
  sign : Claims → String

/-- `time.Time.Unix`, from nanoseconds. -/
def unix (t : Time) : Int := t / 1000000000

/-- The claims as `Issue` completes them. -/
def TokenService.stamped (T : TokenService) (claims : Claims) (sessionID : String) (now : Time) :
    Claims :=
  { claims with
    issuedAt := unix now, expiresAt := unix (now + T.ttl), issuer := T.issuer, sessionID }

/-! ### World -/

/-- What the ceremonies are configured with. -/
structure Deps (Attrs : Type) where
  primitives : Primitives Attrs
  library : Library
  tokens : TokenService
  sessionTTL : Nat

/-- The services' world, the two families of Redis keys and the claims of the tokens that
were handed out. -/
structure World where
  svc : Service.World
  challenges : Redis.Server String (Option LibrarySession)
  sessions : Redis.Server String Sessions.Doc
  issued : List Claims

structure Env where
  svc : Service.Env
  redis : Redis.Choice
  challenge : Bytes
  random : Option Bytes

inductive Op (Attrs : Type) where
  | svc (c : Service.Op Attrs)
  | session (c : Redis.Command String Sessions.Doc)
  | setChallenge (key : String) (session : LibrarySession) (ttl : Nat)
  | getDelChallenge (key : String)
  | random
  | beginRegistration (user : LibraryUser)
  | beginLogin (user : LibraryUser)
  | beginDiscoverableLogin
  | finishRegistration (user : LibraryUser) (session : LibrarySession) (body : Bytes)
  | finishLogin (user : LibraryUser) (session : LibrarySession) (body : Bytes)
  | issue (claims : Claims) (sessionID : String)

@[reducible] def Op.Reply : Op Attrs → Type
  | .svc c => c.Reply
  | .session c => c.Reply
  | .setChallenge .. => Except Redis.Failure Unit
  | .getDelChallenge _ => Except Redis.Failure (Option (Option LibrarySession))
  | .random => Option Bytes
  | .beginRegistration _ | .beginLogin _ | .beginDiscoverableLogin =>
    Except String (Bytes × LibrarySession)
  | .finishRegistration .. | .finishLogin .. => Except String LibraryCredential
  | .issue .. => String

/-- One call. Time passes for all Redis keys together. -/
def exec (D : Deps Attrs) : (c : Op Attrs) → Env → World → c.Reply × World
  | .svc c, e, w =>
    let r := Service.exec D.primitives c e.svc w.svc
    (r.1, { w with svc := r.2 })
  | .session c, e, w =>
    let r := Redis.exec c e.redis w.sessions
    (r.1, { w with sessions := r.2, challenges := w.challenges.advance e.redis.elapsed })
  | .setChallenge key session ttl, e, w =>
    let r := Redis.exec (.write (.set key (some session) ttl)) e.redis w.challenges
    (r.1, { w with challenges := r.2, sessions := w.sessions.advance e.redis.elapsed })
  | .getDelChallenge key, e, w =>
    let challenges := w.challenges.advance e.redis.elapsed
    let r := if e.redis.reachable then challenges.getDel key else (.error .unreachable, challenges)
    (r.1, { w with challenges := r.2, sessions := w.sessions.advance e.redis.elapsed })
  | .random, e, w => (e.random, w)
  | .beginRegistration user, e, w => (D.library.beginRegistration user e.challenge, w)
  | .beginLogin user, e, w => (D.library.beginLogin user e.challenge, w)
  | .beginDiscoverableLogin, e, w => (D.library.beginDiscoverableLogin e.challenge, w)
  | .finishRegistration user session body, e, w =>
    (D.library.finishRegistration user session body e.svc.now, w)
  | .finishLogin user session body, e, w =>
    (D.library.finishLogin user session body e.svc.now, w)
  | .issue claims sessionID, e, w =>
    let claims := D.tokens.stamped claims sessionID e.svc.now
    (D.tokens.sign claims, { w with issued := claims :: w.issued })

/-! ### Parts -/

def services : Embedding (@Service.Op.Reply Attrs) (@Op.Reply Attrs) where
  op := .svc
  back _ r := r

def sessionStore : Embedding (@Redis.Command.Reply String Sessions.Doc) (@Op.Reply Attrs) where
  op := .session
  back _ r := r

def servicePart (D : Deps Attrs) : Part services (Service.exec D.primitives) (exec D) where
  world := World.svc
  choice := Env.svc
  reply _ _ _ := rfl
  next _ _ _ := rfl

def sessionPart (D : Deps Attrs) : Part sessionStore Redis.exec (exec D) where
  world := World.sessions
  choice := Env.redis
  reply _ _ _ := rfl
  next _ _ _ := rfl

/-! ### Concrete surroundings -/

/-- Nothing stored and nothing issued. -/
def World.empty : World where
  svc := ⟨.empty, fun _ => none⟩
  challenges := .empty 0
  sessions := .empty 0
  issued := []

/-- The counter that a response reports: the bytes after the first. -/
def reportedCount (body : Bytes) : UInt32 :=
  (body.drop 1).foldl (fun n b => 256 * n + b.toUInt32) 0

/-- A library that accepts every response for the credential named by its first byte. -/
def plainLibrary : Library where
  beginRegistration _ challenge := .ok ([], ⟨hexText challenge, [], []⟩)
  beginLogin _ challenge := .ok ([], ⟨hexText challenge, [], []⟩)
  beginDiscoverableLogin challenge := .ok ([], ⟨hexText challenge, [], []⟩)
  finishRegistration _ _ body _ := .ok { id := some (body.take 1), publicKey := some [1] }
  finishLogin user _ body _ :=
    match user.credentials.find? fun c => c.id == some (body.take 1) with
    | none => .error "unknown credential"
    | some c =>
      let reported := reportedCount body
      .ok { c with signCount :=
        if c.signCount < reported ∨ (reported = 0 ∧
          c.signCount = 0) then reported else c.signCount }

def plainDeps : Deps Bytes where
  primitives := plainPrimitives
  library := plainLibrary
  tokens := ⟨3600000000000, "verion", fun _ => "token"⟩
  sessionTTL := 3600000000000

/-- Everything works; what is drawn at random is made from `n`. -/
def calm (n : Nat) : Env where
  svc := Service.calm n
  redis := ⟨true, 0⟩
  challenge := [UInt8.ofNat n]
  random := some (List.replicate 16 (UInt8.ofNat n))

def calmFrom (n : Nat) : Nat → Env := fun k => calm (n + k)

end Verion.Auth
