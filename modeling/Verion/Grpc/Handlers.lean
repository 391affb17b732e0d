import Verion.Grpc.Server
import Verion.Library.Fronts
import Verion.Service.Requests

/-!
# gRPC handlers (internal/transport/grpc/identity_server.go, keys_server.go)

The other methods of the two gRPC services. An enum field of a message is an `int32`, so a
request may carry a number that no constant names. The values of an attribute map are
texts in a message; `Maps` holds the two conversions.
-/

namespace Verion.Grpc

open Calls Postgres Service

variable {Attrs : Type}

/-! ### Enumerations (api/gen/go/verion/v1/types.pb.go) -/

/-- A field of an enum type, as it arrives. -/
inductive EnumField (Enum : Type) where
  | named (e : Enum)
  | unknown (n : Int32)
deriving DecidableEq

inductive TenantTierEnum where
  | unspecified | standard | professional | enterprise
deriving DecidableEq, Repr

inductive KeyTypeEnum where
  | unspecified | ed25519 | ecdsaP256 | ecdsaP384 | rsa4096
deriving DecidableEq, Repr

inductive KeyPurposeEnum where
  | unspecified | signing | encryption | authentication | recovery
deriving DecidableEq, Repr

inductive KeyStatusEnum where
  | unspecified | active | rotated | revoked | compromised
deriving DecidableEq, Repr

def identityTypeFromProto : EnumField IdentityTypeEnum → IdentityType
  | .named .human => .human
  | .named .org => .org
  | .named .device => .device
  | .named .service => .service
  | .named .machine => .machine
  | .named .aiAgent => .aiAgent
  | _ => .human

def tenantTierFromProto : EnumField TenantTierEnum → TenantTier
  | .named .professional => .professional
  | .named .enterprise => .enterprise
  | _ => .standard

def keyTypeFromProto : EnumField KeyTypeEnum → KeyType
  | .named .ed25519 => .ed25519
  | .named .ecdsaP256 => .ecdsaP256
  | .named .ecdsaP384 => .ecdsaP384
  | .named .rsa4096 => .rsa4096
  | _ => .ed25519

def keyPurposeFromProto : EnumField KeyPurposeEnum → KeyPurpose
  | .named .signing => .signing
  | .named .encryption => .encryption
  | .named .authentication => .authentication
  | .named .recovery => .recovery
  | _ => .signing

def tenantTierToProto : TenantTier → TenantTierEnum
  | .standard => .standard
  | .professional => .professional
  | .enterprise => .enterprise
  | .other _ => .unspecified

/-- Two of the four key types have no case (`identity_server.go:314-323`). -/
def keyTypeToProto : KeyType → KeyTypeEnum
  | .ed25519 => .ed25519
  | .ecdsaP256 => .ecdsaP256
  | _ => .unspecified

def keyPurposeToProto : KeyPurpose → KeyPurposeEnum
  | .signing => .signing
  | .encryption => .encryption
  | .authentication => .authentication
  | .recovery => .recovery
  | .other _ => .unspecified

def keyStatusToProto : KeyStatus → KeyStatusEnum
  | .active => .active
  | .rotated => .rotated
  | .revoked => .revoked
  | .compromised => .compromised

/-! ### Messages -/

structure TenantMessage where
  id : String
  name : String
  slug : String
  tier : TenantTierEnum
  status : String
  dataRegion : String
  createdAt : Time
  updatedAt : Time
deriving DecidableEq

/-- The JWK and the key reference stay inside. -/
structure KeyMessage where
  id : String
  identityID : String
  tenantID : String
  keyType : KeyTypeEnum
  purpose : KeyPurposeEnum
  algorithm : String
  publicKey : Option Bytes
  fingerprint : String
  status : KeyStatusEnum
  createdAt : Time
  validFrom : Time
  validUntil : Option Time
deriving DecidableEq

def tenantToProto (t : Tenant) : TenantMessage where
  id := t.id
  name := t.name
  slug := t.slug
  tier := tenantTierToProto t.tier
  status := t.status.text
  dataRegion := t.dataRegion
  createdAt := t.createdAt
  updatedAt := t.updatedAt

def identityKeyToProto (k : IdentityKey) : KeyMessage where
  id := k.id
  identityID := k.identityID
  tenantID := k.tenantID
  keyType := keyTypeToProto k.keyType
  purpose := keyPurposeToProto k.purpose
  algorithm := k.algorithm
  publicKey := k.publicKey
  fingerprint := k.fingerprint
  status := keyStatusToProto k.status
  createdAt := k.createdAt
  validFrom := k.validFrom
  validUntil := k.validUntil

/-- `stringMapToAny` and `anyMapToString`, which prints what is no text with `%v`. -/
structure Maps (Attrs : Type) where
  stringMapToAny : List (String × String) → Attrs
  anyMapToString : Option Attrs → List (String × String)

structure CreateTenantRequest where
  name : String
  slug : String
  tier : EnumField TenantTierEnum
  dataRegion : String

structure CreateIdentityRequest where
  tenantID : String
  type : EnumField IdentityTypeEnum
  displayName : String
  handle : String
  createdBy : String
  attributes : List (String × String)

structure UpdateIdentityRequest where
  tenantID : String
  id : String
  displayName : String
  attributes : List (String × String)
  version : Int
  actorID : String

structure GenerateKeyRequest where
  tenantID : String
  identityID : String
  keyType : EnumField KeyTypeEnum
  purpose : EnumField KeyPurposeEnum
  actorID : String

inductive Request where
  | createTenant (req : CreateTenantRequest)
  | getTenant (id : String)
  | suspendTenant (id : String)
  | activateTenant (id : String)
  | createIdentity (req : CreateIdentityRequest)
  | getIdentity (tenantID id : String)
  | getIdentityByHandle (tenantID handle : String)
  | listIdentities (req : ListIdentitiesRequest)
  | updateIdentity (req : UpdateIdentityRequest)
  | suspendIdentity (tenantID id actorID : String)
  | reactivateIdentity (tenantID id actorID : String)
  | deactivateIdentity (tenantID id actorID : String)
  | generateKey (req : GenerateKeyRequest)
  | getKey (tenantID keyID : String)
  | listKeys (tenantID identityID : String)
  | rotateKey (tenantID identityID keyID actorID : String)
  | revokeKey (tenantID keyID actorID : String)

inductive Response where
  | empty
  | tenant (tenant : TenantMessage)
  | created (identity : IdentityMessage) (key : Option KeyMessage)
  | identity (identity : IdentityMessage)
  | identities (resp : ListIdentitiesResponse)
  | key (key : KeyMessage)
  | keys (keys : List KeyMessage)

/-! ### Handlers -/

def tenantInput (req : CreateTenantRequest) : CreateTenantInput :=
  { name := req.name, slug := req.slug, tier := tenantTierFromProto req.tier,
    dataRegion := req.dataRegion }

def identityInput (M : Maps Attrs) (req : CreateIdentityRequest) : CreateIdentityInput Attrs :=
  { tenantID := req.tenantID, type := identityTypeFromProto req.type,
    displayName := req.displayName, handle := req.handle, createdBy := set? req.createdBy,
    attributes := M.stringMapToAny req.attributes }

def updateInput (M : Maps Attrs) (req : UpdateIdentityRequest) : UpdateIdentityInput Attrs :=
  { tenantID := req.tenantID, id := req.id, displayName := req.displayName,
    attributes := M.stringMapToAny req.attributes, version := req.version,
    actorID := set? req.actorID }

def keyInput (req : GenerateKeyRequest) : GenerateKeyInput :=
  { tenantID := req.tenantID, identityID := req.identityID,
    keyType := keyTypeFromProto req.keyType, purpose := keyPurposeFromProto req.purpose,
    actorID := set? req.actorID }

section Handlers

variable (P : Primitives Attrs) (M : Maps Attrs)

def createTenant (req : CreateTenantRequest) : Svc Attrs (Except Status Response) :=
  serve (fun t => .tenant (tenantToProto t)) (Service.createTenant (tenantInput req))

def getTenant (id : String) : Svc Attrs (Except Status Response) :=
  serve (fun t => .tenant (tenantToProto t)) (Service.getTenant id)

def suspendTenant (id : String) : Svc Attrs (Except Status Response) :=
  serve (fun _ => .empty) (Service.suspendTenant id)

def activateTenant (id : String) : Svc Attrs (Except Status Response) :=
  serve (fun _ => .empty) (Service.activateTenant id)

/-- The first of the keys, if there is one. -/
def createIdentity (req : CreateIdentityRequest) : Svc Attrs (Except Status Response) :=
  serve (fun result => .created (identityToProto M.anyMapToString result.identity)
    (result.keys.head?.map identityKeyToProto)) (Service.createIdentity P (identityInput M req))

def getIdentity (tenantID id : String) : Svc Attrs (Except Status Response) :=
  serve (fun ident => .identity (identityToProto M.anyMapToString ident))
    (Service.getIdentity P tenantID id)

def getIdentityByHandle (tenantID handle : String) : Svc Attrs (Except Status Response) :=
  serve (fun ident => .identity (identityToProto M.anyMapToString ident))
    (Service.getIdentityByHandle P tenantID handle)

def updateIdentity (req : UpdateIdentityRequest) : Svc Attrs (Except Status Response) :=
  serve (fun ident => .identity (identityToProto M.anyMapToString ident))
    (Service.updateIdentity P (updateInput M req))

def suspendIdentity (tenantID id actorID : String) : Svc Attrs (Except Status Response) :=
  serve (fun _ => .empty) (Service.suspendIdentity tenantID id actorID)

def reactivateIdentity (tenantID id actorID : String) : Svc Attrs (Except Status Response) :=
  serve (fun _ => .empty) (Service.reactivateIdentity tenantID id actorID)

def deactivateIdentity (tenantID id actorID : String) : Svc Attrs (Except Status Response) :=
  serve (fun _ => .empty) (Service.deactivateIdentity tenantID id actorID)

def generateKey (req : GenerateKeyRequest) : Svc Attrs (Except Status Response) :=
  serve (fun key => .key (identityKeyToProto key)) (Service.generateKey (keyInput req))

def getKey (tenantID keyID : String) : Svc Attrs (Except Status Response) :=
  serve (fun key => .key (identityKeyToProto key)) (Service.getKey tenantID keyID)

def listKeys (tenantID identityID : String) : Svc Attrs (Except Status Response) :=
  serve (fun keys => .keys (keys.map identityKeyToProto)) (Service.listKeys tenantID identityID)

def rotateKey (tenantID identityID keyID actorID : String) : Svc Attrs (Except Status Response) :=
  serve (fun key => .key (identityKeyToProto key))
    (Service.rotateKey tenantID identityID keyID actorID)

def revokeKey (tenantID keyID actorID : String) : Svc Attrs (Except Status Response) :=
  serve (fun _ => .empty) (Service.revokeKey tenantID keyID actorID)

/-- `RegisterIdentityServiceServer` and `RegisterKeyServiceServer`: nothing stands between a
caller and these methods (`server.go:20-29`). -/
def handle : Request → Svc Attrs (Except Status Response)
  | .createTenant req => createTenant req
  | .getTenant id => getTenant id
  | .suspendTenant id => suspendTenant id
  | .activateTenant id => activateTenant id
  | .createIdentity req => createIdentity P M req
  | .getIdentity tenantID id => getIdentity P M tenantID id
  | .getIdentityByHandle tenantID handle => getIdentityByHandle P M tenantID handle
  | .listIdentities req => do
    let resp ← listIdentities P M.anyMapToString req
    .ret (resp.map .identities)
  | .updateIdentity req => updateIdentity P M req
  | .suspendIdentity tenantID id actorID => suspendIdentity tenantID id actorID
  | .reactivateIdentity tenantID id actorID => reactivateIdentity tenantID id actorID
  | .deactivateIdentity tenantID id actorID => deactivateIdentity tenantID id actorID
  | .generateKey req => generateKey req
  | .getKey tenantID keyID => getKey tenantID keyID
  | .listKeys tenantID identityID => listKeys tenantID identityID
  | .rotateKey tenantID identityID keyID actorID => rotateKey tenantID identityID keyID actorID
  | .revokeKey tenantID keyID actorID => revokeKey tenantID keyID actorID

end Handlers

/-! ### The server as a front of the services -/

/-- The message for what a service returned. -/
def answer (M : Maps Attrs) : Service.Response Attrs → Response
  | .none => .empty
  | .tenant t => .tenant (tenantToProto t)
  | .identity ident => .identity (identityToProto M.anyMapToString ident)
  | .identities idents =>
    let protos := idents.map (identityToProto M.anyMapToString)
    .identities { identities := protos, total := protos.length }
  | .identityWithKeys result => .created (identityToProto M.anyMapToString result.identity)
      (result.keys.head?.map identityKeyToProto)
  | .key key => .key (identityKeyToProto key)
  | .keys keys => .keys (keys.map identityKeyToProto)

def outcome (M : Maps Attrs) : Except Error (Service.Response Attrs) → Except Status Response
  | .ok resp => .ok (answer M resp)
  | .error e => .error (toGRPCError e)

/-- The request of the services behind a method. -/
def Request.toService (M : Maps Attrs) : Request → Service.Request Attrs
  | .createTenant req => .createTenant (tenantInput req)
  | .getTenant id => .getTenant id
  | .suspendTenant id => .suspendTenant id
  | .activateTenant id => .activateTenant id
  | .createIdentity req => .createIdentity (identityInput M req)
  | .getIdentity tenantID id => .getIdentity tenantID id
  | .getIdentityByHandle tenantID handle => .getIdentityByHandle tenantID handle
  | .listIdentities req => .listIdentities req.tenantID (listFilter req)
  | .updateIdentity req => .updateIdentity (updateInput M req)
  | .suspendIdentity tenantID id actorID => .suspendIdentity tenantID id actorID
  | .reactivateIdentity tenantID id actorID => .reactivateIdentity tenantID id actorID
  | .deactivateIdentity tenantID id actorID => .deactivateIdentity tenantID id actorID
  | .generateKey req => .generateKey (keyInput req)
  | .getKey tenantID keyID => .getKey tenantID keyID
  | .listKeys tenantID identityID => .listKeys tenantID identityID
  | .rotateKey tenantID identityID keyID actorID => .rotateKey tenantID identityID keyID actorID
  | .revokeKey tenantID keyID actorID => .revokeKey tenantID keyID actorID

def forward (M : Maps Attrs) (req : Request) :
    Forward (Service.Request Attrs) Error (Service.Response Attrs) (Except Status Response) :=
  .pass (req.toService M) (outcome M)

theorem serve_eq_front {α : Type} {P : Primitives Attrs} {M : Maps Attrs} {req : Request}
    {f : α → Service.Response Attrs} {g : α → Response} {p : Svc Attrs α}
    (hreq : (req.toService M).program P = respond f p) (h : ∀ a, answer M (f a) = g a) :
    serve g p = front (Service.Request.program P) (forward M) req := by
  show _ = (((req.toService M).program P).attempt >>= fun r => .ret (outcome M r))
  rw [hreq, attempt_respond_bind, serve]
  refine congrArg (p.attempt >>= ·) (funext fun r => ?_)
  cases r with
  | ok a =>
    show Program.ret (Except.ok (g a)) = .ret (.ok (answer M (f a)))
    rw [h a]
  | error e => rfl

/-- `ListIdentities` makes its message in two steps. -/
theorem serve_map {α β γ : Type} (f : α → β) (g : β → γ) (p : Svc Attrs α) :
    (serve f p >>= fun resp => .ret (resp.map g)) = (serve (fun a => g (f a)) p : Svc Attrs _) := by
  rw [serve, serve, Program.bind_assoc]
  refine congrArg (p.attempt >>= ·) (funext fun r => ?_)
  cases r <;> rfl

theorem handle_eq_front (P : Primitives Attrs) (M : Maps Attrs) (req : Request) :
    handle P M req = front (Service.Request.program P) (forward M) req := by
  cases req with
  | listIdentities req => exact (serve_map _ _ _).trans (serve_eq_front rfl fun _ => rfl)
  | _ => exact serve_eq_front rfl fun _ => rfl

end Verion.Grpc
