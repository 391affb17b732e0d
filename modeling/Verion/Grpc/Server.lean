import Verion.Service.Identities

/-!
# gRPC server (internal/transport/grpc)

A handler turns its request into an input of a service, and the error of the service into
a status. `ListIdentities` reports the length of the page it sends as the total.
-/

namespace Verion.Grpc

open Calls Postgres Service

inductive Code where
  | notFound | alreadyExists | invalidArgument | aborted | failedPrecondition | permissionDenied
  | internal
deriving DecidableEq, Repr

structure Status where
  code : Code
  message : String
deriving DecidableEq, Repr

/-- The cases in the order of the `switch` (`server.go:36-74`). -/
def toGRPCError (e : Error) : Status :=
  if [.notFound, .keyNotFound, .tenantNotFound, .credentialNotFound,
    .recoveryNotFound].any e.is then
    ⟨.notFound, e.message⟩
  else if [.alreadyExists, .handleTaken].any e.is then ⟨.alreadyExists, e.message⟩
  else if [.invalidInput, .invalidHandle].any e.is then ⟨.invalidArgument, e.message⟩
  else if e.is .versionConflict then ⟨.aborted, e.message⟩
  else if [.identityInactive, .identityTerminal, .tenantInactive, .keyNotUsable, .keyCompromised,
      .credentialInactive, .credentialConsumed, .recoveryNotUsable, .noPrimaryKey].any e.is then
    ⟨.failedPrecondition, e.message⟩
  else if e.is .unauthorized then ⟨.permissionDenied, e.message⟩
  else ⟨.internal, "internal error"⟩

/-! ### Messages (api/proto/verion/v1) -/

inductive IdentityTypeEnum where
  | unspecified | human | org | device | service | machine | aiAgent
deriving DecidableEq, Repr

inductive IdentityStatusEnum where
  | unspecified | pending | active | suspended | deactivated | archived
deriving DecidableEq, Repr

structure IdentityMessage where
  id : String
  tenantID : String
  type : IdentityTypeEnum
  displayName : String
  handle : String
  status : IdentityStatusEnum
  version : Int
  createdAt : Time
  updatedAt : Time
  attributes : List (String × String)
  primaryKeyID : String
deriving DecidableEq

structure ListIdentitiesRequest where
  tenantID : String := ""
  type : String := ""
  status : String := ""
  limit : Int32 := 0
  offset : Int32 := 0
deriving DecidableEq

structure ListIdentitiesResponse where
  identities : List IdentityMessage
  total : Int
deriving DecidableEq

def identityTypeToProto : IdentityType → IdentityTypeEnum
  | .human => .human
  | .org => .org
  | .device => .device
  | .service => .service
  | .machine => .machine
  | .aiAgent => .aiAgent
  | .other _ => .unspecified

def identityStatusToProto : IdentityStatus → IdentityStatusEnum
  | .pending => .pending
  | .active => .active
  | .suspended => .suspended
  | .deactivated => .deactivated
  | .archived => .archived

variable {Attrs : Type}

/-- `anyMapToString` prints the values of the map. -/
def identityToProto (anyMapToString : Option Attrs → List (String × String)) (i : Identity Attrs) :
    IdentityMessage where
  id := i.id
  tenantID := i.tenantID
  type := identityTypeToProto i.type
  displayName := i.displayName
  handle := i.handle
  status := identityStatusToProto i.status
  version := i.version
  createdAt := i.createdAt
  updatedAt := i.updatedAt
  attributes := anyMapToString i.decryptedAttributes
  primaryKeyID := i.primaryKeyID.getD ""

/-! ### Handlers -/

/-- Call the service; its error goes to `toGRPCError`. -/
def serve {α β : Type} (respond : α → β) (p : Svc Attrs α) : Svc Attrs (Except Status β) := do
  match ← p.attempt with
  | .ok a => .ret (.ok (respond a))
  | .error e => .ret (.error (toGRPCError e))

/-- A field of a message is set if it is not empty. -/
def set? (field : String) : Option String :=
  if field ≠ "" then some field else none

def listFilter (req : ListIdentitiesRequest) : IdentityFilter where
  type := (set? req.type).map IdentityType.ofText
  status := set? req.status
  limit := req.limit.toInt
  offset := req.offset.toInt

def listIdentities (P : Primitives Attrs)
    (anyMapToString : Option Attrs → List (String × String)) (req : ListIdentitiesRequest) :
    Svc Attrs (Except Status ListIdentitiesResponse) :=
  serve (fun identities =>
      let protos := identities.map (identityToProto anyMapToString)
      { identities := protos, total := protos.length })
    (Service.listIdentities P req.tenantID (listFilter req))

end Verion.Grpc
