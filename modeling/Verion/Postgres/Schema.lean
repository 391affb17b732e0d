import Verion.Library.Table
import Verion.Identity.Errors

/-!
# Tables (internal/db/migrations)

One row type per table and one keyed table per primary key. Enum columns refuse
the texts that are no label, `CITEXT` columns compare without case, and `text`
columns hold no U+0000; the checks are made where a statement binds its
parameters. `metadata`, `before_state` and the request columns of
`audit_events` are never set by the services and are left out.
-/

namespace Verion.Postgres

structure TenantRow where
  id : UUID
  name : String
  slug : String
  tier : TenantTier
  status : TenantStatus
  settings : Bytes
  dataRegion : String
  createdAt : Time
  updatedAt : Time
deriving DecidableEq

structure IdentityRow where
  id : UUID
  tenantID : UUID
  type : IdentityType
  displayName : String
  handle : String
  status : IdentityStatus
  primaryKeyID : Option UUID
  attributes : Bytes
  attributesIV : Bytes
  createdBy : Option UUID
  version : Int
  createdAt : Time
  updatedAt : Time
  deactivatedAt : Option Time
deriving DecidableEq

structure KeyRow where
  id : UUID
  identityID : UUID
  tenantID : UUID
  keyType : KeyType
  purpose : KeyPurpose
  algorithm : String
  publicKey : Bytes
  publicKeyJWK : Bytes
  keyRef : String
  fingerprint : String
  status : KeyStatus
  validFrom : Time
  validUntil : Option Time
  rotatedAt : Option Time
  rotatedTo : Option UUID
  createdAt : Time
deriving DecidableEq

structure CredentialRow where
  id : UUID
  identityID : UUID
  tenantID : UUID
  keyID : Option UUID
  type : CredentialType
  status : CredentialStatus
  data : Bytes
  dataIV : Bytes
  aaguid : Option UUID
  credentialID : Option Bytes
  signCount : Int
  name : Option String
  deviceInfo : Option Bytes
  lastUsedAt : Option Time
  createdAt : Time
  expiresAt : Option Time
deriving DecidableEq

/-- A `timestamptz`, in microseconds. -/
structure Timestamp where
  micros : Int
deriving DecidableEq

/-- The driver cuts the nanoseconds off. -/
def Timestamp.ofTime (t : Time) : Timestamp := ⟨t / 1000⟩

def Timestamp.toTime (t : Timestamp) : Time := t.micros * 1000

/-- The times PostgreSQL has: from 24 November 4714 BC, before the year 294277. -/
def Timestamp.inRange (t : Timestamp) : Bool :=
  decide (-210866803200000000 ≤ t.micros) && decide (t.micros < 9224318016000000000)

structure AuditRow where
  id : UUID
  tenantID : UUID
  eventType : String
  entityType : String
  entityID : UUID
  actorID : Option UUID
  afterState : Option AfterState
  success : Bool
  occurredAt : Timestamp
deriving DecidableEq

structure DB where
  tenants : Table TenantRow.id
  identities : Table IdentityRow.id
  identityKeys : Table KeyRow.id
  credentials : Table CredentialRow.id
  auditEvents : Table AuditRow.id

def DB.empty : DB where
  tenants := Table.empty
  identities := Table.empty
  identityKeys := Table.empty
  credentials := Table.empty
  auditEvents := Table.empty

/-! ### Binding parameters -/

theorem bind_eq_ok {α β : Type} {x : Except SqlState α} {f : α → Except SqlState β} {b : β} :
    (x >>= f) = .ok b ↔ ∃ a, x = .ok a ∧ f a = .ok b := by
  cases x with
  | error e =>
    constructor
    · intro h
      cases h
    · rintro ⟨a, h, -⟩
      cases h
  | ok a =>
    constructor
    · intro h
      exact ⟨a, rfl, h⟩
    · rintro ⟨a', h, hf⟩
      cases h
      exact hf

theorem pure_eq_ok {α : Type} {a b : α} : (pure a : Except SqlState α) = .ok b ↔ a = b :=
  ⟨fun h => by cases h; rfl, fun h => by rw [h]; rfl⟩

def uuidParam (s : String) : Except SqlState UUID :=
  match UUID.ofText? s with
  | some u => .ok u
  | none => .error .invalidTextRepresentation

theorem uuidParam_ok {s : String} {u : UUID} : uuidParam s = .ok u ↔ UUID.ofText? s = some u := by
  unfold uuidParam
  cases UUID.ofText? s <;> simp

def uuidParam? : Option String → Except SqlState (Option UUID)
  | none => .ok none
  | some s => (uuidParam s).map some

def hasNul (s : String) : Bool :=
  s.toList.contains '\x00'

/-- The text of an identifier has no U+0000 in it. -/
theorem hasNul_of_ofText? {s : String} {u : UUID} (h : UUID.ofText? s = some u) :
    hasNul s = false := by
  cases hn : hasNul s with
  | false => rfl
  | true =>
    have hmem : '\x00' ∈ s.toList := by simpa [hasNul] using hn
    have hchar := UUID.isUuidChar_of_ofText? h _ hmem
    exact absurd hchar (by decide)

def textParam (s : String) : Except SqlState String :=
  if hasNul s then .error .characterNotInRepertoire else .ok s

theorem textParam_ok {s t : String} : textParam s = .ok t ↔ hasNul s = false ∧ t = s := by
  unfold textParam
  cases hasNul s with
  | true => simp
  | false => simp [eq_comm]

def labelParam {τ : Type} (isLabel : τ → Bool) (v : τ) : Except SqlState τ :=
  if isLabel v then .ok v else .error .invalidTextRepresentation

theorem labelParam_ok {τ : Type} {isLabel : τ → Bool} {v w : τ} :
    labelParam isLabel v = .ok w ↔ isLabel v = true ∧ w = v := by
  unfold labelParam
  cases isLabel v with
  | true => simp [eq_comm]
  | false => simp

/-- A text that is to be a label; a clause may be left out. -/
def labelParam? {τ : Type} (ofText? : String → Option τ) :
    Option String → Except SqlState (Option τ)
  | none => .ok none
  | some s => match ofText? s with
    | some v => .ok (some v)
    | none => .error .invalidTextRepresentation

def textParam? : Option String → Except SqlState (Option String)
  | none => .ok none
  | some s => (textParam s).map some

def timestampParam (t : Time) : Except SqlState Timestamp :=
  if (Timestamp.ofTime t).inRange then .ok (.ofTime t) else .error .datetimeFieldOverflow

theorem timestampParam_ok {t : Time} {v : Timestamp} :
    timestampParam t = .ok v ↔ (Timestamp.ofTime t).inRange = true ∧ v = .ofTime t := by
  unfold timestampParam
  cases (Timestamp.ofTime t).inRange with
  | true => simp [eq_comm]
  | false => simp

def timestampParam? : Option Time → Except SqlState (Option Timestamp)
  | none => .ok none
  | some t => (timestampParam t).map some

def notNull {τ : Type} : Option τ → Except SqlState τ
  | some v => .ok v
  | none => .error .notNullViolation

theorem notNull_ok {τ : Type} {x : Option τ} {v : τ} : notNull x = .ok v ↔ x = some v := by
  cases x <;> simp [notNull]

def ensure (b : Bool) (code : SqlState) : Except SqlState Unit :=
  if b then .ok () else .error code

theorem ensure_ok {b : Bool} {code : SqlState} {u : Unit} : ensure b code = .ok u ↔ b = true := by
  cases b <;> simp [ensure]

def isTenantTier : TenantTier → Bool
  | .other _ => false
  | _ => true

def isIdentityType : IdentityType → Bool
  | .other _ => false
  | _ => true

def isKeyType : KeyType → Bool
  | .other _ => false
  | _ => true

def isKeyPurpose : KeyPurpose → Bool
  | .other _ => false
  | _ => true

def isCredentialType : CredentialType → Bool
  | .other _ => false
  | _ => true

/-- `CITEXT` equality. -/
def citextEq (s t : String) : Bool :=
  s.toList.map Char.toLower == t.toList.map Char.toLower

/-- The largest `BIGINT`. -/
def maxBigint : Int := 2 ^ 63 - 1

/-! ### Inserting -/

section
variable {κ ρ : Type} [DecidableEq κ] {key : ρ → κ}

/-- Insert behind a unique index: `clash` selects the rows the new one collides with. -/
def insertUnique (t : Table key) (clash : ρ → Bool) (r : ρ) : Except SqlState (Table key) :=
  if t.rows.any clash then .error .uniqueViolation
  else match t.insert? r with
    | some t' => .ok t'
    | none => .error .uniqueViolation

theorem insertUnique_ok {t t' : Table key} {clash : ρ → Bool} {r : ρ} :
    insertUnique t clash r = .ok t' ↔ t.rows.any clash = false ∧ t.insert? r = some t' := by
  unfold insertUnique
  cases hclash : t.rows.any clash with
  | true => simp
  | false => cases hins : t.insert? r <;> simp

def references (t : Table key) (k : κ) : Except SqlState Unit :=
  ensure (t.get? k).isSome .foreignKeyViolation

def references? (t : Table key) : Option κ → Except SqlState Unit
  | none => .ok ()
  | some k => references t k

end

end Verion.Postgres
