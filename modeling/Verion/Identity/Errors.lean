import Verion.Identity.Model

/-!
# Errors (internal/identity/errors.go, svc_helpers.go)

An error is a sentinel, one of the typed errors that match a sentinel under
`errors.Is`, a failure reported by the PostgreSQL driver, a plain text, or
another error wrapped with a context by `fmt.Errorf("...: %w", err)`.
-/

namespace Verion

inductive Sentinel where
  | notFound | alreadyExists | invalidInput | versionConflict | identityInactive
  | identityTerminal | keyNotFound | keyNotUsable | keyCompromised | noPrimaryKey
  | credentialNotFound | credentialInactive | credentialConsumed | recoveryNotFound
  | recoveryNotUsable | tenantNotFound | tenantInactive | unauthorized | encryption
  | invalidHandle | handleTaken
deriving DecidableEq, Repr

def Sentinel.text : Sentinel → String
  | .notFound => "identity: not found"
  | .alreadyExists => "identity: already exists"
  | .invalidInput => "identity: invalid input"
  | .versionConflict => "identity: version conflict"
  | .identityInactive => "identity: identity is not active"
  | .identityTerminal => "identity: identity is in a terminal state"
  | .keyNotFound => "identity: key not found"
  | .keyNotUsable => "identity: key is not usable"
  | .keyCompromised => "identity: key is compromised"
  | .noPrimaryKey => "identity: no primary key set"
  | .credentialNotFound => "identity: credential not found"
  | .credentialInactive => "identity: credential is not active"
  | .credentialConsumed => "identity: credential already consumed"
  | .recoveryNotFound => "identity: recovery method not found"
  | .recoveryNotUsable => "identity: recovery method is not usable"
  | .tenantNotFound => "identity: tenant not found"
  | .tenantInactive => "identity: tenant is not active"
  | .unauthorized => "identity: unauthorized"
  | .encryption => "identity: encryption failure"
  | .invalidHandle => "identity: invalid handle format"
  | .handleTaken => "identity: handle already taken"

/-- The SQLSTATE classes the statements of the repositories can end with. -/
inductive SqlState where
  | invalidTextRepresentation   -- 22P02
  | characterNotInRepertoire    -- 22021
  | numericValueOutOfRange      -- 22003
  | datetimeFieldOverflow       -- 22008
  | invalidRowCount             -- 2201W, 2201X
  | notNullViolation            -- 23502
  | foreignKeyViolation         -- 23503
  | uniqueViolation             -- 23505
deriving DecidableEq, Repr

/-- What the driver reports: no row for `QueryRow`, a server error, or a call
that did not get through (no connection, cancelled context). -/
inductive PgError where
  | noRows
  | server (code : SqlState)
  | unavailable
deriving DecidableEq, Repr

inductive Error where
  | sentinel (s : Sentinel)
  | notFound (entityType id : String)
  | validation (field message : String)
  | versionConflict (entityType id : String) (expected actual : Int)
  | pg (e : PgError)
  | text (message : String)
  | wrap (context : String) (e : Error)
deriving DecidableEq, Repr

namespace Error

/-- `errors.Is(err, target)` for the sentinels. -/
def is : Error → Sentinel → Bool
  | .sentinel s, t => s == t
  | .notFound _ _, t => t == .notFound
  | .validation _ _, t => t == .invalidInput
  | .versionConflict _ _ _ _, t => t == .versionConflict
  | .pg _, _ => false
  | .text _, _ => false
  | .wrap _ e, t => e.is t

/-- `containsPGCode(err, "23505")` (`db.go:96-112`). -/
def isUniqueViolation : Error → Bool
  | .pg (.server .uniqueViolation) => true
  | .wrap _ e => e.isUniqueViolation
  | _ => false

/-- The text of the error is "no rows in result set", so only the bare one counts. -/
def isNotFound : Error → Bool
  | .pg .noRows => true
  | _ => false

/-- `err.Error()`. A driver error matches no sentinel, so that its text goes to the log
and never into a response; it is left out. -/
def message : Error → String
  | .sentinel s => s.text
  | .notFound entityType id => "identity: " ++ entityType ++ " not found: " ++ id
  | .validation field message =>
    "identity: validation failed on field '" ++ field ++ "': " ++ message
  | .versionConflict entityType id _ _ =>
    "identity: version conflict on " ++ entityType ++ " " ++ id
  | .pg _ => ""
  | .text message => message
  | .wrap context e => context ++ ": " ++ e.message

end Error

/-- The sentinels that `wrapRepoError` lets through unchanged (`svc_helpers.go:10-28`). -/
def passedThrough : List Sentinel :=
  [.notFound, .tenantNotFound, .alreadyExists, .handleTaken, .tenantInactive, .identityTerminal,
    .identityInactive, .versionConflict, .keyNotFound, .keyNotUsable]

def wrapRepoError (e : Error) (op : String) : Error :=
  if passedThrough.any e.is then e else .wrap op e

/-- Wrapping never changes which sentinels an error matches. -/
theorem wrapRepoError_is (e : Error) (op : String) (s : Sentinel) :
    (wrapRepoError e op).is s = e.is s := by
  unfold wrapRepoError
  split
  · rfl
  · rfl

end Verion
