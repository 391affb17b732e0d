import Verion.Service.World

/-!
# Identity service (internal/identity/identity_service.go)

Each method is the program of the calls it makes, in the order it makes them,
with the context it wraps the error of each call in.
-/

namespace Verion.Service

open Calls Postgres

variable {Attrs : Type}

abbrev Svc (Attrs α : Type) := Program (@Op.Reply Attrs) Error α

/-- `if err != nil { return nil, f(err) }`. -/
def orFail {α : Type} (f : Error → Error) : Except Error α → Svc Attrs α
  | .ok a => .ret a
  | .error e => .fail (f e)

/-- `if cond { return e }`. -/
def refuseIf (cond : Prop) [Decidable cond] (e : Error) : Svc Attrs Unit :=
  if cond then .fail e else .ret ()

def repo (c : RepoCall Attrs) (onError : Error → Error) : Svc Attrs c.Result :=
  .call (.repo c) (orFail onError)

def writeAudit (event : AuditEvent) : Svc Attrs Unit :=
  repo (.audit (.insert event)) (.wrap "write audit event")

structure CreateIdentityInput (Attrs : Type) where
  tenantID : String
  type : IdentityType
  displayName : String
  handle : String
  createdBy : Option String
  attributes : Attrs

structure UpdateIdentityInput (Attrs : Type) where
  tenantID : String
  id : String
  displayName : String
  attributes : Attrs
  version : Int
  actorID : Option String

/-- An update of the identity of `smallWorld` that stores the map `[7]`. -/
def sevenForAda : UpdateIdentityInput Bytes :=
  { tenantID := (UUID.ofNat 1).toText, id := (UUID.ofNat 2).toText, displayName := "Ada",
    attributes := [7], version := 1, actorID := none }

/-! ### Attributes -/

/-- JSON, then AES-GCM; the nonce is put in front of the ciphertext
(`identity_service.go:335-353`). -/
def encryptAttributes (P : Primitives Attrs) (attrs : Attrs) :
    Svc Attrs (Except Error (Option Bytes)) :=
  if P.isEmpty attrs then .ret (.ok none)
  else match P.marshal attrs with
    | none => .ret (.error (.wrap "marshal attributes" (.text "json: unsupported value")))
    | some plaintext => .call (.encrypt plaintext) fun
      | .error e => .ret (.error (.wrap "encrypt" e))
      | .ok (ciphertext, iv) => .ret (.ok (some (iv ++ ciphertext)))

/-- Nothing happens to an identity without stored bytes (`identity_service.go:358-379`). -/
def decryptAttributes (P : Primitives Attrs) (ident : Identity Attrs) :
    Except Error (Identity Attrs) :=
  let stored := ident.attributes.getD []
  if stored.length = 0 then .ok ident
  else if stored.length < 12 then .error (.text "encrypted attributes too short")
  else match decrypt P (stored.drop 12) (stored.take 12) with
    | .error e => .error (.wrap "decrypt" e)
    | .ok plaintext => match P.unmarshal plaintext with
      | none => .error (.wrap "unmarshal attributes" (.text "json: invalid"))
      | some attrs => .ok { ident with decryptedAttributes := some attrs }

/-- The decryption fills in the map and keeps the rest. -/
theorem decryptAttributes_eq {P : Primitives Attrs} {x ident : Identity Attrs}
    (h : decryptAttributes P x = .ok ident) :
    ∃ attrs, ident = { x with decryptedAttributes := attrs } := by
  unfold decryptAttributes at h
  dsimp only at h
  split at h
  · cases h
    exact ⟨x.decryptedAttributes, rfl⟩
  · split at h
    · cases h
    · split at h
      · cases h
      · split at h
        · cases h
        · cases h
          exact ⟨_, rfl⟩

theorem decryptAttributes_ok {P : Primitives Attrs} {x ident : Identity Attrs}
    (h : decryptAttributes P x = .ok ident) : ident.id = x.id ∧ ident.tenantID = x.tenantID := by
  obtain ⟨attrs, rfl⟩ := decryptAttributes_eq h
  exact ⟨rfl, rfl⟩

/-! ### Validation -/

/-- The checks run in this order; lengths are in bytes (`identity_service.go:381-403`). -/
def validateCreateIdentityInput (input : CreateIdentityInput Attrs) : Except Error Unit :=
  if input.tenantID = "" then .error (.validation "tenant_id" "must not be empty")
  else if input.handle = "" then .error (.validation "handle" "must not be empty")
  else if input.handle.utf8ByteSize > 64 then
    .error (.validation "handle" "must be 64 characters or fewer")
  else if input.handle.toList.contains ' ' then
    .error (.validation "handle" "must not contain spaces")
  else if input.displayName = "" then .error (.validation "display_name" "must not be empty")
  else if input.displayName.utf8ByteSize > 128 then
    .error (.validation "display_name" "must be 128 characters or fewer")
  else .ok ()

/-! ### Methods -/

def createIdentity (P : Primitives Attrs) (input : CreateIdentityInput Attrs) :
    Svc Attrs (IdentityWithKeys Attrs) := do
  orFail (fun e => e) (validateCreateIdentityInput input)
  let tenant ← repo (.tenants (.getByID input.tenantID)) (wrapRepoError · "get tenant")
  refuseIf (tenant.status ≠ .active) (.sentinel .tenantInactive)
  let encryptedAttrs ← orFail (.wrap "encrypt attributes") (← encryptAttributes P input.attributes)
  let created ← repo (.identities (.create
      { tenantID := input.tenantID, type := input.type, displayName := input.displayName,
        handle := input.handle, status := .pending, createdBy := input.createdBy,
        attributes := encryptedAttrs })) (wrapRepoError · "create identity")
  let generated ← .call (.generateKey .ed25519 created.id) (orFail (.wrap "generate ed25519 key"))
  let createdKey ← repo (.keys (.create
      { tenantID := input.tenantID, identityID := created.id, keyType := .ed25519,
        purpose := .signing, algorithm := "EdDSA", publicKey := some generated.publicKeyDER,
        publicKeyJWK := some generated.jwk, keyRef := generated.keyRef,
        fingerprint := generated.fingerprint, status := .active }))
    (wrapRepoError · "create identity key")
  repo (.identities (.setPrimaryKey input.tenantID created.id createdKey.id))
    (wrapRepoError · "set primary key")
  repo (.identities (.updateStatus input.tenantID created.id .active))
    (wrapRepoError · "activate identity")
  writeAudit
    { tenantID := input.tenantID, entityType := "identity", entityID := created.id,
      actorID := input.createdBy, success := true }
  .ret ⟨{ created with primaryKeyID := some createdKey.id, status := .active }, [createdKey]⟩

def getIdentity (P : Primitives Attrs) (tenantID id : String) : Svc Attrs (Identity Attrs) := do
  let ident ← repo (.identities (.getByID tenantID id)) (wrapRepoError · "get identity")
  orFail (.wrap "decrypt attributes") (decryptAttributes P ident)

def getIdentityByHandle (P : Primitives Attrs) (tenantID handle : String) :
    Svc Attrs (Identity Attrs) := do
  let ident ← repo (.identities (.getByHandle tenantID handle))
    (wrapRepoError · "get identity by handle")
  orFail (.wrap "decrypt attributes") (decryptAttributes P ident)

/-- The loop of `ListIdentities` stops at the first identity that does not decrypt. -/
def decryptAll (P : Primitives Attrs) : List (Identity Attrs) → Except Error (List (Identity Attrs))
  | [] => .ok []
  | ident :: rest => match decryptAttributes P ident with
    | .error e => .error (.wrap ("decrypt attributes for " ++ ident.id) e)
    | .ok ident => match decryptAll P rest with
      | .error e => .error e
      | .ok rest => .ok (ident :: rest)

theorem decryptAll_cons_ok {P : Primitives Attrs} {x : Identity Attrs}
    {rest out : List (Identity Attrs)} :
    decryptAll P (x :: rest) = .ok out ↔ ∃ y ys, decryptAttributes P x = .ok y ∧
      decryptAll P rest = .ok ys ∧ out = y :: ys := by
  rw [decryptAll]
  cases decryptAttributes P x with
  | error e => simp
  | ok y => cases decryptAll P rest <;> simp [eq_comm]

/-- Each identity that `decryptAll` returns is the decryption of one it was given. -/
theorem mem_of_decryptAll {P : Primitives Attrs} :
    ∀ {idents out : List (Identity Attrs)}, decryptAll P idents = .ok out →
      ∀ ident ∈ out, ∃ x ∈ idents, decryptAttributes P x = .ok ident := by
  intro idents
  induction idents with
  | nil => intro out h ident hmem; cases h; cases hmem
  | cons x rest ih =>
    intro out h ident hmem
    obtain ⟨y, ys, hx, hrest, rfl⟩ := decryptAll_cons_ok.mp h
    rcases List.mem_cons.mp hmem with rfl | hmem
    · exact ⟨x, List.mem_cons_self .., hx⟩
    · obtain ⟨z, hz, hdec⟩ := ih hrest ident hmem
      exact ⟨z, List.mem_cons_of_mem _ hz, hdec⟩

theorem decryptAll_length {P : Primitives Attrs} {idents out : List (Identity Attrs)}
    (h : decryptAll P idents = .ok out) : out.length = idents.length := by
  induction idents generalizing out with
  | nil => cases h; rfl
  | cons x rest ih =>
    obtain ⟨y, ys, -, hrest, rfl⟩ := decryptAll_cons_ok.mp h
    rw [List.length_cons, List.length_cons, ih hrest]

theorem exists_decryptAll {P : Primitives Attrs} {idents : List (Identity Attrs)} :
    (∃ out, decryptAll P idents = .ok out) ↔
      ∀ x ∈ idents, ∃ y, decryptAttributes P x = .ok y := by
  induction idents with
  | nil => exact ⟨fun _ _ h => (nomatch h), fun _ => ⟨[], rfl⟩⟩
  | cons x rest ih =>
    rw [List.forall_mem_cons, ← ih]
    constructor
    · rintro ⟨out, hout⟩
      obtain ⟨y, ys, hx, hrest, -⟩ := decryptAll_cons_ok.mp hout
      exact ⟨⟨y, hx⟩, ⟨ys, hrest⟩⟩
    · rintro ⟨⟨y, hx⟩, ⟨ys, hrest⟩⟩
      exact ⟨y :: ys, decryptAll_cons_ok.mpr ⟨y, ys, hx, hrest, rfl⟩⟩

def listIdentities (P : Primitives Attrs) (tenantID : String) (filter : IdentityFilter) :
    Svc Attrs (List (Identity Attrs)) := do
  let identities ← repo (.identities (.list tenantID filter)) (wrapRepoError · "list identities")
  orFail (fun e => e) (decryptAll P identities)

def updateIdentity (P : Primitives Attrs) (input : UpdateIdentityInput Attrs) :
    Svc Attrs (Identity Attrs) := do
  refuseIf (input.displayName = "") (.validation "display_name" "must not be empty")
  let existing ← repo (.identities (.getByID input.tenantID input.id))
    (wrapRepoError · "get identity for update")
  let encryptedAttrs ← orFail (.wrap "encrypt attributes") (← encryptAttributes P input.attributes)
  let updated ← repo (.identities (.update
      { existing with displayName := input.displayName, attributes := encryptedAttrs,
                      version := input.version })) (wrapRepoError · "update identity")
  orFail (.wrap "decrypt attributes") (decryptAttributes P updated)

/-- The three lifecycle methods: read, refuse a terminal identity, write the new
status, record the event. -/
def changeStatus (status : IdentityStatus) (event getContext writeContext : String)
    (tenantID id actorID : String) : Svc Attrs Unit := do
  let ident ← repo (.identities (.getByID tenantID id)) (wrapRepoError · getContext)
  refuseIf ident.status.isTerminal (.sentinel .identityTerminal)
  repo (.identities (.updateStatus tenantID id status)) (wrapRepoError · writeContext)
  writeAudit
    { tenantID, eventType := event, entityType := "identity", entityID := id,
      actorID := if actorID ≠ "" then some actorID else none, success := true }

def deactivateIdentity (tenantID id actorID : String) : Svc Attrs Unit :=
  changeStatus .deactivated "identity.deactivated" "get identity for deactivate"
    "deactivate identity" tenantID id actorID

def suspendIdentity (tenantID id actorID : String) : Svc Attrs Unit :=
  changeStatus .suspended "identity.suspended" "get identity for suspend" "suspend identity"
    tenantID id actorID

def reactivateIdentity (tenantID id actorID : String) : Svc Attrs Unit :=
  changeStatus .active "identity.activated" "get identity for reactivate" "reactivate identity"
    tenantID id actorID

end Verion.Service
