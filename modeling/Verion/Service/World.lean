import Verion.Postgres.Effects

/-!
# What the services call (internal/crypto, internal/crypto/local, the repositories)

The services reach the repositories, the crypto service and the clock. The
world they share is the database and the private keys of the local key store.
Cryptographic primitives and the JSON encoding of attribute maps are parameters
with the laws documented of them.
-/

namespace Verion.Service

open Calls Postgres

inductive KeyAlgorithm where
  | ed25519 | ecdsaP256
deriving DecidableEq, Repr

structure PrivateKey where
  algorithm : KeyAlgorithm
  secret : Bytes
deriving DecidableEq

/-- Primitives of the Go libraries; `Attrs` is `map[string]any`. -/
structure Primitives (Attrs : Type) where
  isEmpty : Attrs → Bool
  marshal : Attrs → Option Bytes
  unmarshal : Bytes → Option Attrs
  masterKey : Bytes
  gcmSeal : Bytes → Bytes → Bytes → Bytes
  gcmOpen : Bytes → Bytes → Bytes → Option Bytes
  publicKeyDER : PrivateKey → Bytes
  publicKeyJWK : PrivateKey → String → Bytes
  sha256 : Bytes → Bytes

structure World where
  db : DB
  keys : String → Option PrivateKey

/-- A 12-byte GCM nonce. -/
structure IV where
  bytes : Bytes
  length_eq : bytes.length = 12

/-- The choices of the surroundings for one call: the process clock, what happens
to each statement, and what the random source yields, if it yields anything. -/
structure Env where
  now : Time
  statements : Nat → Choice
  iv : Option IV
  secret : Option Bytes

structure GeneratedKey where
  publicKeyDER : Bytes
  jwk : Bytes
  keyRef : String
  fingerprint : String
deriving DecidableEq

inductive Op (Attrs : Type) where
  | repo (c : RepoCall Attrs)
  | generateKey (algorithm : KeyAlgorithm) (keyID : String)
  | deleteKey (keyRef : String)
  | encrypt (plaintext : Bytes)
  | now

variable {Attrs : Type}

@[reducible] def Op.Reply : Op Attrs → Type
  | .repo c => Except Error c.Result
  | .generateKey _ _ => Except Error GeneratedKey
  | .deleteKey _ => Except Error Unit
  | .encrypt _ => Except Error (Bytes × Bytes)
  | .now => Time

/-! ### Key store (local/keystore.go) -/

def keyRefPrefix : String := "local://"

def keyRefOf (keyID : String) : String := keyRefPrefix ++ keyID

/-- `Store`: an existing key of the same name is overwritten (`keystore.go:34-42`). -/
def store (keyID : String) (key : PrivateKey) (w : World) : Except Error String × World :=
  if keyID = "" then (.error (.text "local keystore: keyID must not be empty"), w)
  else (.ok (keyRefOf keyID),
    { w with keys := fun r => if r = keyRefOf keyID then some key else w.keys r })

def hasKeyRefPrefix (keyRef : String) : Bool :=
  keyRefPrefix.toList.isPrefixOf keyRef.toList

def delete (keyRef : String) (w : World) : Except Error Unit × World :=
  if hasKeyRefPrefix keyRef then
    (.ok (), { w with keys := fun r => if r = keyRef then none else w.keys r })
  else (.error (.text ("local keystore: unrecognised key_ref format: " ++ keyRef.quote)), w)

/-- `Sign`; `signature` is what the library makes of the private key and the data. -/
def sign (signature : PrivateKey → Bytes → Except Error Bytes) (keyRef : String) (data : Bytes)
    (w : World) : Except Error Bytes :=
  if hasKeyRefPrefix keyRef then
    match w.keys keyRef with
    | none => .error (.text ("local keystore: key not found: " ++ keyRef.quote))
    | some key =>
      match key.algorithm with
      | .ed25519 => (signature key data).mapError (.wrap "local keystore: ed25519 sign")
      | .ecdsaP256 =>
        if data.length ≠ 32 then
          .error
            (.text ("local keystore: ecdsa sign: data must be a 32-byte SHA-256 digest, got " ++
            toString data.length ++ " bytes"))
        else (signature key data).mapError (.wrap "local keystore: ecdsa sign")
  else .error (.text ("local keystore: unrecognised key_ref format: " ++ keyRef.quote))

/-! ### Crypto service (crypto/keys.go, crypto/aes.go) -/

/-- The words the two generators put into their errors. -/
def KeyAlgorithm.label : KeyAlgorithm → String
  | .ed25519 => "ed25519"
  | .ecdsaP256 => "ecdsa p256"

def hexText (bs : Bytes) : String :=
  String.ofList (bs.flatMap fun b =>
    [hexChar (Fin.ofNat 16 (b.toNat / 16)), hexChar (Fin.ofNat 16 b.toNat)])

/-- Draw a key pair, store the private half under `keyID`, describe the public half. -/
def generateAndStore (P : Primitives Attrs) (algorithm : KeyAlgorithm) (keyID : String)
    (secret : Option Bytes) (w : World) : Except Error GeneratedKey × World :=
  match secret with
  | none => (.error (.wrap ("generate " ++ algorithm.label ++ " key") (.text "entropy")), w)
  | some bytes =>
    let key : PrivateKey := ⟨algorithm, bytes⟩
    match store keyID key w with
    | (.error e, w') => (.error (.wrap ("store " ++ algorithm.label ++ " private key") e), w')
    | (.ok keyRef, w') =>
      (.ok { publicKeyDER := P.publicKeyDER key, jwk := P.publicKeyJWK key keyID, keyRef,
             fingerprint := hexText (P.sha256 (P.publicKeyDER key)) }, w')

def generateEd25519Key (P : Primitives Attrs) (keyID : String) (secret : Option Bytes) (w : World) :
    Except Error GeneratedKey × World :=
  generateAndStore P .ed25519 keyID secret w

def generateECDSAP256Key (P : Primitives Attrs) (keyID : String) (secret : Option Bytes)
    (w : World) : Except Error GeneratedKey × World :=
  generateAndStore P .ecdsaP256 keyID secret w

/-- `aesEncrypt` under the master key: ciphertext and nonce. -/
def encrypt (P : Primitives Attrs) (plaintext : Bytes) (iv : Option IV) :
    Except Error (Bytes × Bytes) :=
  if P.masterKey.length ≠ 32 then
    .error (.text ("aes encrypt: master key must be 32 bytes, got " ++ toString P.masterKey.length))
  else match iv with
    | none => .error (.wrap "aes encrypt: generate iv" (.text "entropy"))
    | some iv => .ok (P.gcmSeal P.masterKey iv.bytes plaintext, iv.bytes)

def decrypt (P : Primitives Attrs) (ciphertext iv : Bytes) : Except Error Bytes :=
  if P.masterKey.length ≠ 32 then
    .error (.text ("aes decrypt: master key must be 32 bytes, got " ++ toString P.masterKey.length))
  else if iv.length ≠ 12 then
    .error (.text ("aes decrypt: iv must be 12 bytes, got " ++ toString iv.length))
  else match P.gcmOpen P.masterKey iv ciphertext with
    | none => .error (.text "aes decrypt: authentication failed")
    | some p => .ok p

/-! ### One call -/

def exec (P : Primitives Attrs) : (c : Op Attrs) → Env → World → c.Reply × World
  | .repo c, e, w =>
    let r := perform (c.script e.now) e.statements w.db
    (r.1, { w with db := r.2 })
  | .generateKey .ed25519 keyID, e, w => generateEd25519Key P keyID e.secret w
  | .generateKey .ecdsaP256 keyID, e, w => generateECDSAP256Key P keyID e.secret w
  | .deleteKey keyRef, _, w => delete keyRef w
  | .encrypt plaintext, e, w => (encrypt P plaintext e.iv, w)
  | .now, e, w => (e.now, w)

/-! ### A concrete world -/

/-- Primitives with nothing hidden: a map is its bytes, the cipher copies, the public
half of a key is its secret. -/
def plainPrimitives : Primitives Bytes where
  isEmpty := List.isEmpty
  marshal := some
  unmarshal := some
  masterKey := List.replicate 32 0
  gcmSeal _ _ p := p
  gcmOpen _ _ c := some c
  publicKeyDER k := k.secret
  publicKeyJWK k _ := k.secret
  sha256 := id

/-- Everything works; what is drawn at random is made from `n`. -/
def calm (n : Nat) : Env where
  now := n
  statements _ := ⟨true, ⟨n, UUID.ofNat n⟩⟩
  iv := some ⟨List.replicate 12 0, rfl⟩
  secret := some [UInt8.ofNat n]

def acmeRow : TenantRow :=
  { id := .ofNat 1, name := "acme", slug := "acme", tier := .standard, status := .active,
    settings := [], dataRegion := "global", createdAt := 0, updatedAt := 0 }

def adaRow : IdentityRow :=
  { id := .ofNat 2, tenantID := .ofNat 1, type := .human, displayName := "Ada", handle := "ada",
    status := .active, primaryKeyID := none, attributes := [], attributesIV := [],
    createdBy := none, version := 1, createdAt := 0, updatedAt := 0, deactivatedAt := none }

/-- One active tenant with one active identity. -/
def smallWorld : World where
  db := { DB.empty with
    tenants := ⟨[acmeRow], List.nodup_singleton _⟩
    identities := ⟨[adaRow], List.nodup_singleton _⟩ }
  keys _ := none

end Verion.Service
